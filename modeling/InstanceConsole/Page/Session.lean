import InstanceConsole.Page.Basic

/-!
# Sessions

A session is a page with the messages that wait for it, and the fetches that have not been
answered. A message waits in a queue; an answered fetch joins its end as a completion. Settling
answers all fetches, also those that come up meanwhile, and applies all messages. After the page
has been detached nothing reaches it any more.
-/

set_option autoImplicit false

namespace InstanceConsole

structure Session where
  page : Page
  attached : Bool := true
  /-- The messages that wait, oldest first. -/
  queue : List PageMessage := []
  /-- The numbers of the fetches that have been answered, by their place among those issued. -/
  answered : List Nat := []

namespace Session

def mount (stored : StoredState) (location : Location) : Session :=
  { page := .mount stored location }

/-- The fetches that have not been answered, with their numbers. -/
def held (s : Session) : List (Nat × Fetch) :=
  (s.page.fetches.mapIdx fun number fetch => (number, fetch)).filter (·.1 ∉ s.answered)

/-- Applies an event at once. -/
def dispatch (s : Session) (event : PageEvent) : Session :=
  { s with page := s.page.dispatch event }

/-- Lets an event wait for the page. -/
def send (s : Session) (event : PageEvent) : Except PageError Session :=
  if s.attached then .ok { s with queue := s.queue ++ [.event event] } else .error .detached

/-- Applies the oldest message that waits, and says whether there was one. -/
def processNext (s : Session) : Session × Bool :=
  match s.queue with
  | [] => (s, false)
  | message :: queue => ({ s with page := s.page.handle message, queue }, true)

/-- Applies all messages that wait. -/
def drain (s : Session) : Session :=
  { s with page := s.queue.foldl Page.handle s.page, queue := [] }

/-- Lets a completion wait for the page; a detached page takes none. -/
def deliver (s : Session) (number : Nat) (completion : Completion) : Session :=
  { s with
    answered := number :: s.answered
    queue := if s.attached then s.queue ++ [.completion completion] else s.queue }

/-- Answers a fetch that is held. -/
def answer? {σ : Type} (s : Session) (backend : Backend σ) (state : σ) (number : Nat) :
    Option (Session × σ) :=
  (s.held.lookup number).map fun fetch =>
    let (completion, state) := backend.complete state fetch
    (s.deliver number completion, state)

/-- Answers all fetches that are held, in the order of their issue. -/
def answerAll {σ : Type} (backend : Backend σ) (s : Session) (state : σ) : Session × σ :=
  s.held.foldl
    (fun (s, state) (number, fetch) =>
      let (completion, state) := backend.complete state fetch
      (s.deliver number completion, state))
    (s, state)

/-- Answers all fetches and applies all messages. A completion issues no fetch, so after the
second round none is left. -/
def settle {σ : Type} (backend : Backend σ) (s : Session) (state : σ) : Session × σ :=
  let (s, state) := s.answerAll backend state
  let (s, state) := s.drain.answerAll backend state
  (s.drain, state)

/-- Takes the page off; the messages that wait are dropped. -/
def detach (s : Session) : Session := { s with attached := false, queue := [] }

/-- The stored state once all updates that the page has queued are written. -/
def storedState (s : Session) (initial : StoredState) : StoredState :=
  s.page.writes.foldl StoredState.apply initial

end Session

end InstanceConsole

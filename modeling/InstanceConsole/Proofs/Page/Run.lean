import InstanceConsole.Proofs.Page.Steps

/-!
# Runs of a page

A page lives among a router, its panels and a backend. In whatever order these act, one event or
one answer after the other reaches the page. In between, the router may visit locations of which
the page is not told. A run is any list of such moves.

A fetch is known by its number, its place among the fetches issued. It is answered once at most.
-/

set_option autoImplicit false

namespace InstanceConsole

/-- What the backend says to a fetch, whichever kind it is of. -/
structure Reply where
  count : Except ClientError UInt64
  details : Except ClientError InstancesDetails

/-- The completion of a fetch by a reply. -/
def Fetch.completion (reply : Reply) : Fetch → Completion
  | .count token _ => .count token reply.count
  | .newSelection payload => .newSelection payload reply.details
  | .extension id payload => .extension id payload reply.details

inductive Move
  | event (event : PageEvent)
  /-- The fetch with a number is answered. -/
  | answer (number : Nat) (reply : Reply)
  /-- The router visits a location. -/
  | visit (location : Location)

/-- A page and the numbers of its fetches that have been answered. -/
structure LivePage where
  page : Page
  answered : List Nat := []

namespace LivePage

def mount (stored : StoredState) (location : Location) : LivePage :=
  { page := .mount stored location }

/-- The fetch with a number, while it waits for its answer. -/
def waiting? (l : LivePage) (number : Nat) : Option Fetch :=
  if number ∈ l.answered then none else l.page.fetches[number]?

/-- One move. Nothing comes of an answer to a fetch that does not wait for one. -/
def step (l : LivePage) : Move → LivePage
  | .event event => { l with page := l.page.dispatch event }
  | .answer number reply =>
      match l.waiting? number with
      | none => l
      | some fetch =>
          { page := l.page.complete (fetch.completion reply), answered := number :: l.answered }
  | .visit location => { l with page := { l.page with history := l.page.history.push location } }

def run (l : LivePage) (moves : List Move) : LivePage := moves.foldl step l

theorem step_answer_of_none {l : LivePage} {number : Nat} (h : l.waiting? number = none)
    (reply : Reply) : l.step (.answer number reply) = l := by
  simp only [step, h]

theorem step_answer_of_some {l : LivePage} {number : Nat} {fetch : Fetch}
    (h : l.waiting? number = some fetch) (reply : Reply) :
    l.step (.answer number reply) =
      { page := l.page.complete (fetch.completion reply), answered := number :: l.answered } := by
  simp only [step, h]

/-- The message that a move brings to the page. -/
def message? (l : LivePage) : Move → Option PageMessage
  | .event event => some (.event event)
  | .answer number reply =>
      (l.waiting? number).map fun fetch => .completion (fetch.completion reply)
  | .visit _ => none

/-- The page handles the message of a move; a move without one leaves all but the history. -/
theorem page_step (l : LivePage) (m : Move) :
    (∃ message, l.message? m = some message ∧ (l.step m).page = l.page.handle message) ∨
      l.message? m = none ∧ ∃ history, (l.step m).page = { l.page with history } := by
  cases m with
  | event e => exact .inl ⟨.event e, rfl, rfl⟩
  | visit location => exact .inr ⟨rfl, _, rfl⟩
  | answer number reply =>
      simp only [message?]
      cases hw : l.waiting? number with
      | none =>
          rw [step_answer_of_none hw]
          exact .inr ⟨rfl, l.page.history, rfl⟩
      | some fetch =>
          rw [step_answer_of_some hw]
          exact .inl ⟨.completion (fetch.completion reply), rfl, rfl⟩

/-! ## Fetches that wait -/

/-- A fetch that waits after an event waited before, or was issued by the event. -/
theorem waiting?_event {l : LivePage} {e : PageEvent} {number : Nat} {fetch : Fetch}
    (h : (l.step (.event e)).waiting? number = some fetch) :
    l.waiting? number = some fetch ∨ (∃ token criteria, fetch = .count token criteria) ∨
      l.page.MayIssue e fetch := by
  obtain ⟨issued, hfetches, hissued⟩ := l.page.fetches_dispatch e
  simp only [waiting?, step, hfetches] at h ⊢
  by_cases hanswered : number ∈ l.answered
  · rw [if_pos hanswered] at h
    cases h
  · rw [if_neg hanswered] at h ⊢
    -- The fetches that an event issues come behind the old ones.
    by_cases hold : number < l.page.fetches.length
    · rw [List.getElem?_append_left hold] at h
      exact .inl h
    · rw [List.getElem?_append_right (Nat.le_of_not_lt hold)] at h
      exact .inr (hissued fetch (List.mem_of_getElem? h))

/-- A fetch that waits after an answer is another one than the one answered, and waited before. -/
theorem waiting?_answer {l : LivePage} {answered number : Nat} {reply : Reply} {fetch : Fetch}
    (h : (l.step (.answer answered reply)).waiting? number = some fetch) :
    l.waiting? number = some fetch ∧ number ≠ answered := by
  cases hw : l.waiting? answered with
  | none =>
      rw [step_answer_of_none hw] at h
      refine ⟨h, ?_⟩
      -- The one answered did not wait, and the move changed nothing.
      rintro rfl
      rw [hw] at h
      cases h
  | some asked =>
      rw [step_answer_of_some hw] at h
      simp only [waiting?, Page.fetches_complete, List.mem_cons] at h ⊢
      by_cases hmem : number = answered ∨ number ∈ l.answered
      · rw [if_pos hmem] at h
        cases h
      · rw [if_neg hmem] at h
        obtain ⟨hne, hnotmem⟩ := not_or.mp hmem
        rw [if_neg hnotmem]
        exact ⟨h, hne⟩

theorem getElem?_of_waiting? {l : LivePage} {number : Nat} {fetch : Fetch}
    (h : l.waiting? number = some fetch) : l.page.fetches[number]? = some fetch := by
  unfold waiting? at h
  split at h
  · cases h
  · exact h

theorem waiting?_of_mem {l : LivePage} {number : Nat} (h : number ∈ l.answered) :
    l.waiting? number = none := by
  rw [waiting?, if_pos h]

theorem waiting?_of_notMem {l : LivePage} {number : Nat} (h : number ∉ l.answered) :
    l.waiting? number = l.page.fetches[number]? := by
  rw [waiting?, if_neg h]

theorem notMem_answered_of_waiting? {l : LivePage} {number : Nat} {fetch : Fetch}
    (h : l.waiting? number = some fetch) : number ∉ l.answered := by
  intro hmem
  rw [waiting?_of_mem hmem] at h
  cases h

/-- A fetch that waits still waits after any other move than its own answer. -/
theorem waiting?_step {l : LivePage} {m : Move} {number : Nat} {fetch : Fetch}
    (h : l.waiting? number = some fetch) (hm : ∀ reply, m ≠ .answer number reply) :
    (l.step m).waiting? number = some fetch := by
  have hfetch := getElem?_of_waiting? h
  have hnot := notMem_answered_of_waiting? h
  cases m with
  | event e =>
      obtain ⟨issued, hissued, -⟩ := l.page.fetches_dispatch e
      simp only [waiting?, step, hissued]
      rw [if_neg hnot, List.getElem?_append_left (List.getElem?_eq_some_iff.mp hfetch).1]
      exact hfetch
  | visit location => exact h
  | answer other reply =>
      have hne : number ≠ other := by
        rintro rfl
        exact hm reply rfl
      cases hw : l.waiting? other with
      | none =>
          rw [step_answer_of_none hw]
          exact h
      | some asked =>
          rw [step_answer_of_some hw]
          simp only [waiting?, Page.fetches_complete, List.mem_cons]
          rw [if_neg (by simp [hne, hnot])]
          exact hfetch

/-- A fetch that has been answered stays so. -/
theorem answered_step {l : LivePage} {number : Nat} (m : Move) (h : number ∈ l.answered) :
    number ∈ (l.step m).answered := by
  cases m with
  | event e => exact h
  | visit location => exact h
  | answer other reply =>
      cases hw : l.waiting? other with
      | none =>
          rw [step_answer_of_none hw]
          exact h
      | some fetch =>
          rw [step_answer_of_some hw]
          exact List.mem_cons_of_mem _ h

/-! ## Runs -/

theorem run_cons (l : LivePage) (m : Move) (moves : List Move) :
    l.run (m :: moves) = (l.step m).run moves := rfl

theorem run_append (l : LivePage) (before after : List Move) :
    l.run (before ++ after) = (l.run before).run after :=
  List.foldl_append

/-- What holds at first and is kept by every move of a run holds in the end. -/
theorem run_induction {P : LivePage → Prop} {moves : List Move} {l : LivePage}
    (hstep : ∀ l, ∀ m ∈ moves, P l → P (l.step m)) (h : P l) : P (l.run moves) := by
  induction moves generalizing l with
  | nil => exact h
  | cons m moves ih =>
      rw [run_cons]
      exact ih (fun l m hm => hstep l m (by simp [hm])) (hstep l m (by simp) h)

/-- What every message to the page keeps, and a change of the history keeps too, holds all along
a run. -/
theorem page_run_induction {P : Page → Prop} {l : LivePage} (moves : List Move)
    (hdispatch : ∀ p e, P p → P (p.dispatch e)) (hcomplete : ∀ p c, P p → P (p.complete c))
    (hhistory : ∀ p history, P p → P { p with history }) (h : P l.page) :
    P (l.run moves).page := by
  refine run_induction (P := fun l => P l.page) (fun l m _ hl => ?_) h
  cases m with
  | event e => exact hdispatch _ e hl
  | answer number reply =>
      cases hw : l.waiting? number with
      | none =>
          rw [step_answer_of_none hw]
          exact hl
      | some fetch =>
          rw [step_answer_of_some hw]
          exact hcomplete _ _ hl
  | visit location => exact hhistory _ _ hl

theorem answered_run {l : LivePage} {number : Nat} (moves : List Move) (h : number ∈ l.answered) :
    number ∈ (l.run moves).answered :=
  run_induction (P := fun next => number ∈ next.answered) (fun _ m _ hnext => answered_step m hnext)
    h

/-- The fetches that were issued stay, with their numbers. -/
theorem fetches_run (l : LivePage) (moves : List Move) :
    l.page.fetches <+: (l.run moves).page.fetches := by
  refine page_run_induction (P := fun p => l.page.fetches <+: p.fetches) moves ?_ ?_ ?_
    (List.prefix_refl _)
  · intro p e h
    obtain ⟨issued, hissued, -⟩ := p.fetches_dispatch e
    rw [hissued]
    exact h.trans (List.prefix_append _ _)
  · intro p c h
    rw [Page.fetches_complete]
    exact h
  · intro p history h
    exact h

theorem getElem?_fetches_run {l : LivePage} {number : Nat} {fetch : Fetch} (moves : List Move)
    (h : l.page.fetches[number]? = some fetch) :
    (l.run moves).page.fetches[number]? = some fetch := by
  obtain ⟨issued, hissued⟩ := l.fetches_run moves
  rw [← hissued, List.getElem?_append_left (List.getElem?_eq_some_iff.mp h).1]
  exact h

end LivePage

end InstanceConsole

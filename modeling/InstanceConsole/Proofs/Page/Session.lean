import InstanceConsole.Page.Session
import InstanceConsole.Proofs.Page.SelectionFetches
import InstanceConsole.Proofs.Page.StoreMirror
import Mathlib.Data.List.Nodup

/-!
# Sessions as runs

Whatever is done with a session, its page goes through a run: a message that waits in the queue is
a move that is still to come (`Follows`). Settling ends a run in which every fetch has been
answered (`Follows.settle`). So what holds of all runs holds of the pages of all sessions.
-/

set_option autoImplicit false

namespace InstanceConsole

/-- The number of the fetch that a move answers. -/
def Move.number? : Move → Option Nat
  | .answer number _ => some number
  | _ => none

/-- Moves that answer a fetch. -/
inductive Move.IsAnswer : Move → Prop
  | intro (number : Nat) (reply : Reply) : IsAnswer (.answer number reply)

/-- Every completion is the completion of its fetch by some reply. -/
theorem Backend.exists_reply {σ : Type} (backend : Backend σ) (state : σ) (fetch : Fetch) :
    ∃ reply, (backend.complete state fetch).1 = fetch.completion reply := by
  cases fetch with
  | count token criteria => exact ⟨⟨(backend.count state criteria).1, .ok { totalCount := 0 }⟩, rfl⟩
  | newSelection payload => exact ⟨⟨.ok 0, (backend.details state payload).1⟩, rfl⟩
  | extension id payload => exact ⟨⟨.ok 0, (backend.details state payload).1⟩, rfl⟩

namespace LivePage

variable {l : LivePage} {m n : Move}

/-- The message of a move still comes after another move, if this answers no fetch or another
one. -/
theorem message?_step {message : PageMessage} (h : l.message? n = some message)
    (hother : ∀ number, m.number? = some number → n.number? ≠ some number) :
    (l.step m).message? n = some message := by
  cases n with
  | event e => exact h
  | visit location => cases h
  | answer number reply =>
      obtain ⟨fetch, hwaiting, hmessage⟩ := Option.map_eq_some_iff.mp h
      have hnot : ∀ again, m ≠ .answer number again := by
        rintro again rfl
        exact hother number rfl rfl
      simp only [message?, waiting?_step hwaiting hnot, Option.map_some, hmessage]

theorem page_step_of_message? {message : PageMessage} (h : l.message? m = some message) :
    (l.step m).page = l.page.handle message := by
  rcases l.page_step m with ⟨other, hother, hpage⟩ | ⟨hnone, -⟩
  · rw [hpage, Option.some.inj (hother.symm.trans h)]
  · rw [hnone] at h
    cases h

/-- A move with a message answers the fetch that it is about. -/
theorem mem_answered_step {message : PageMessage} (h : l.message? m = some message)
    (number : Nat) :
    number ∈ (l.step m).answered ↔ number ∈ l.answered ∨ m.number? = some number := by
  cases m with
  | event e => simp [step, Move.number?]
  | visit location => cases h
  | answer other reply =>
      obtain ⟨fetch, hwaiting, -⟩ := Option.map_eq_some_iff.mp h
      rw [step_answer_of_some hwaiting, List.mem_cons, or_comm, eq_comm]
      simp [Move.number?]

end LivePage

namespace Session

/-- The page of a session is at the end of a run, and the messages of its queue come by further
moves. The fetches that have been answered are those of the run, and those whose answers wait. -/
structure Follows (s : Session) (l : LivePage) (pending : List Move) : Prop where
  page : s.page = l.page
  queue : pending.map l.message? = s.queue.map some
  distinct : (pending.filterMap Move.number?).Nodup
  answered : ∀ number, number ∈ s.answered ↔
    number ∈ l.answered ∨ number ∈ pending.filterMap Move.number?

variable {s t : Session} {l : LivePage} {pending : List Move} {m : Move} {number : Nat}

theorem follows_mount (stored : StoredState) (location : Location) :
    (mount stored location).Follows (.mount stored location) [] :=
  ⟨rfl, rfl, List.nodup_nil, by simp [mount, LivePage.mount]⟩

theorem Follows.exists_message (h : s.Follows l pending) (hm : m ∈ pending) :
    ∃ message, l.message? m = some message := by
  have hmem : l.message? m ∈ s.queue.map some := by
    rw [← h.queue]
    exact List.mem_map_of_mem hm
  obtain ⟨message, -, hmessage⟩ := List.mem_map.mp hmem
  exact ⟨message, hmessage.symm⟩

/-- The messages of the queue are those of the moves to come. -/
theorem Follows.queue_eq (h : s.Follows l pending) : s.queue = pending.filterMap l.message? := by
  have hall : (pending.map l.message?).filterMap id = (s.queue.map some).filterMap id := by
    rw [h.queue]
  rw [List.filterMap_map, List.filterMap_map] at hall
  exact List.filterMap_some.symm.trans hall.symm

/-- An event that is still to come waits in the queue. -/
theorem Follows.mem_queue (h : s.Follows l pending) {e : PageEvent} (he : .event e ∈ pending) :
    .event e ∈ s.queue := by
  rw [h.queue_eq]
  exact List.mem_filterMap.mpr ⟨.event e, he, rfl⟩

/-! ## Events -/

theorem Follows.dispatch (h : s.Follows l pending) (e : PageEvent) :
    (s.dispatch e).Follows (l.step (.event e)) pending where
  page := congrArg (Page.dispatch · e) h.page
  queue := by
    refine (List.map_congr_left fun m hm => ?_).trans h.queue
    obtain ⟨message, hmessage⟩ := h.exists_message hm
    rw [hmessage]
    exact LivePage.message?_step hmessage (by simp [Move.number?])
  distinct := h.distinct
  answered := h.answered

theorem Follows.send {e : PageEvent} (h : s.Follows l pending) (ht : s.send e = .ok t) :
    t.attached = true ∧ t.Follows l (pending ++ [.event e]) := by
  unfold Session.send at ht
  split at ht
  · next hattached =>
    obtain rfl := Except.ok.inj ht
    have hnumbers : (pending ++ [Move.event e]).filterMap Move.number? =
        pending.filterMap Move.number? := by
      rw [List.filterMap_append]
      exact List.append_nil _
    refine ⟨hattached, h.page, ?_, ?_, ?_⟩
    · rw [List.map_append, h.queue, List.map_append]
      rfl
    · rw [hnumbers]
      exact h.distinct
    · rw [hnumbers]
      exact h.answered
  · cases ht

/-! ## Messages -/

theorem Follows.queue_eq_nil (h : s.Follows l []) : s.queue = [] := by
  simpa using h.queue.symm

/-- The oldest message is that of the first move. -/
theorem Follows.handle (h : s.Follows l (m :: pending)) :
    ∃ message queue, s.queue = message :: queue ∧
      Follows { s with page := s.page.handle message, queue } (l.step m) pending := by
  obtain ⟨message, queue, hqueue, hmessage, hrest⟩ := List.map_eq_cons_iff.mp h.queue.symm
  have hfirst : l.message? m = some message := hmessage.symm
  refine ⟨message, queue, hqueue, ?_⟩
  have hanswered := h.answered
  have hdistinct := h.distinct
  rw [List.filterMap_cons] at hanswered hdistinct
  refine ⟨?_, ?_, ?_, ?_⟩
  · show s.page.handle message = _
    rw [LivePage.page_step_of_message? hfirst, h.page]
  · refine (List.map_congr_left fun n hn => ?_).trans hrest.symm
    obtain ⟨later, hlater⟩ := h.exists_message (List.mem_cons_of_mem m hn)
    rw [hlater]
    refine LivePage.message?_step hlater ?_
    -- Two answers that wait are answers to different fetches.
    intro number hm hn'
    rw [hm] at hdistinct
    exact (List.nodup_cons.mp hdistinct).1 (List.mem_filterMap.mpr ⟨n, hn, hn'⟩)
  · cases hm : m.number? with
    | none => simpa [hm] using hdistinct
    | some number =>
        rw [hm] at hdistinct
        exact (List.nodup_cons.mp hdistinct).2
  · intro number
    rw [LivePage.mem_answered_step hfirst]
    show number ∈ s.answered ↔ _
    rw [hanswered]
    cases hm : m.number? with
    | none => simp
    | some other => simp [or_assoc, eq_comm]

theorem Follows.processNext_cons (h : s.Follows l (m :: pending)) :
    s.processNext.1.Follows (l.step m) pending := by
  obtain ⟨message, queue, hqueue, hnext⟩ := h.handle
  unfold Session.processNext
  rw [hqueue]
  exact hnext

theorem Follows.processNext (h : s.Follows l pending) :
    ∃ handled rest, pending = handled ++ rest ∧ s.processNext.1.Follows (l.run handled) rest := by
  cases pending with
  | nil =>
      unfold Session.processNext
      rw [h.queue_eq_nil]
      exact ⟨[], [], rfl, h⟩
  | cons m pending => exact ⟨[m], pending, rfl, h.processNext_cons⟩

theorem Follows.drain (h : s.Follows l pending) : s.drain.Follows (l.run pending) [] := by
  induction pending generalizing s l with
  | nil =>
      unfold Session.drain
      rw [h.queue_eq_nil]
      exact ⟨h.page, rfl, h.distinct, h.answered⟩
  | cons m pending ih =>
      obtain ⟨message, queue, hqueue, hnext⟩ := h.handle
      have hdrain := ih hnext
      unfold Session.drain at hdrain ⊢
      rw [hqueue]
      exact hdrain

/-! ## Answers -/

/-- A fetch that the session holds has been issued, and not been answered. -/
theorem mem_held {fetch : Fetch} :
    (number, fetch) ∈ s.held ↔ number ∉ s.answered ∧ s.page.fetches[number]? = some fetch := by
  rw [held, List.mem_filter, List.mem_mapIdx, and_comm]
  refine and_congr (by simp) ?_
  simp [List.getElem?_eq_some_iff, Prod.ext_iff]

theorem nodup_held (s : Session) : (s.held.map Prod.fst).Nodup := by
  have hall : (s.page.fetches.mapIdx fun number fetch => (number, fetch)).map Prod.fst =
      List.range s.page.fetches.length :=
    List.ext_getElem (by simp) (by simp)
  refine List.Nodup.sublist (List.filter_sublist.map Prod.fst) ?_
  rw [hall]
  exact List.nodup_range

theorem Follows.deliver {fetch : Fetch} (h : s.Follows l pending) (hattached : s.attached = true)
    (hheld : (number, fetch) ∈ s.held) (reply : Reply) :
    (s.deliver number (fetch.completion reply)).Follows l (pending ++ [.answer number reply]) := by
  obtain ⟨hnot, hfetch⟩ := mem_held.mp hheld
  have hfree := mt (h.answered number).mpr hnot
  obtain ⟨hrun, hpending⟩ := not_or.mp hfree
  have hwaiting : l.waiting? number = some fetch := by
    rw [LivePage.waiting?_of_notMem hrun, ← h.page]
    exact hfetch
  have hnumbers : (pending ++ [Move.answer number reply]).filterMap Move.number? =
      pending.filterMap Move.number? ++ [number] := List.filterMap_append
  refine ⟨h.page, ?_, ?_, ?_⟩
  · simp only [Session.deliver, hattached, if_true, List.map_append, h.queue, List.map_cons,
      List.map_nil, LivePage.message?, hwaiting, Option.map_some]
  · rw [hnumbers]
    refine List.nodup_append.mpr ⟨h.distinct, List.nodup_singleton number, ?_⟩
    intro other hother last hlast heq
    rw [heq, List.mem_singleton.mp hlast] at hother
    exact hpending hother
  · intro other
    show other ∈ number :: s.answered ↔ _
    rw [hnumbers, List.mem_cons, h.answered other, List.mem_append, List.mem_singleton]
    exact or_comm.trans or_assoc

/-- The backend answers one fetch, and the session takes the answer. -/
def answerOne {σ : Type} (backend : Backend σ) (s : Session × σ) (asked : Nat × Fetch) :
    Session × σ :=
  (s.1.deliver asked.1 (backend.complete s.2 asked.2).1, (backend.complete s.2 asked.2).2)

theorem answerAll_eq {σ : Type} (backend : Backend σ) (s : Session) (state : σ) :
    s.answerAll backend state = s.held.foldl (answerOne backend) (s, state) := rfl

theorem Follows.answerOne {σ : Type} (h : s.Follows l pending) (hattached : s.attached = true)
    {asked : Nat × Fetch} (hheld : asked ∈ s.held) (backend : Backend σ) (state : σ) :
    ∃ reply, (Session.answerOne backend (s, state) asked).1.Follows l
      (pending ++ [.answer asked.1 reply]) := by
  obtain ⟨reply, hreply⟩ := backend.exists_reply state asked.2
  refine ⟨reply, ?_⟩
  unfold Session.answerOne
  rw [hreply]
  exact h.deliver hattached hheld reply

theorem Follows.answer? {σ : Type} {backend : Backend σ} {state next : σ}
    (h : s.Follows l pending) (hattached : s.attached = true)
    (ht : s.answer? backend state number = some (t, next)) :
    t.attached = true ∧ ∃ reply, t.Follows l (pending ++ [.answer number reply]) := by
  obtain ⟨fetch, hlookup, hanswer⟩ := Option.map_eq_some_iff.mp ht
  obtain ⟨before, after, hsplit, -⟩ := List.lookup_eq_some_iff.mp hlookup
  have hheld : (number, fetch) ∈ s.held := by simp [hsplit]
  obtain rfl : (Session.answerOne backend (s, state) (number, fetch)).1 = t :=
    congrArg Prod.fst hanswer
  exact ⟨hattached, h.answerOne hattached hheld backend state⟩

/-- All fetches of a list that the session holds are answered in turn. -/
theorem Follows.foldl_answerOne {σ : Type} (backend : Backend σ) (state : σ)
    {asked : List (Nat × Fetch)} (h : s.Follows l pending) (hattached : s.attached = true)
    (hheld : ∀ a ∈ asked, a ∈ s.held) (hdistinct : (asked.map Prod.fst).Nodup) :
    let t := (asked.foldl (Session.answerOne backend) (s, state)).1
    t.attached = true ∧
      (∀ number, number ∈ t.answered ↔ number ∈ s.answered ∨ number ∈ asked.map Prod.fst) ∧
      ∃ answers, (∀ m ∈ answers, m.IsAnswer) ∧
        t.Follows l (pending ++ answers) := by
  induction asked generalizing s pending state with
  | nil => exact ⟨hattached, by simp, [], by simp, by simpa using h⟩
  | cons a asked ih =>
      obtain ⟨hfirst, hothers⟩ := List.nodup_cons.mp hdistinct
      obtain ⟨reply, hnext⟩ := h.answerOne hattached (hheld a (by simp)) backend state
      have hstill : ∀ b ∈ asked, b ∈ (Session.answerOne backend (s, state) a).1.held := by
        intro b hb
        obtain ⟨hnot, hfetch⟩ := mem_held.mp (hheld b (List.mem_cons_of_mem a hb))
        refine mem_held.mpr ⟨?_, hfetch⟩
        intro hmem
        rcases List.mem_cons.mp hmem with heq | hmem
        · exact hfirst (heq ▸ List.mem_map_of_mem hb)
        · exact hnot hmem
      obtain ⟨hlast, hall, answers, hanswers, hfollows⟩ := ih _ hnext hattached hstill hothers
      refine ⟨hlast, ?_, .answer a.1 reply :: answers, ?_, ?_⟩
      · intro number
        refine (hall number).trans ?_
        show number ∈ a.1 :: s.answered ∨ _ ↔ _
        simp only [List.mem_cons, List.map_cons]
        exact or_assoc.trans or_left_comm
      · intro m hm
        rcases List.mem_cons.mp hm with rfl | hm
        · exact .intro a.1 reply
        · exact hanswers m hm
      · rw [List.append_cons]
        exact hfollows

/-! ## Settling -/

/-- Answering all fetches leaves none without an answer. -/
theorem Follows.answerAll {σ : Type} (backend : Backend σ) (state : σ) (h : s.Follows l pending)
    (hattached : s.attached = true) :
    (s.answerAll backend state).1.attached = true ∧
      (∀ number < l.page.fetches.length, number ∈ (s.answerAll backend state).1.answered) ∧
      ∃ answers, (∀ m ∈ answers, m.IsAnswer) ∧
        (s.answerAll backend state).1.Follows l (pending ++ answers) := by
  rw [answerAll_eq]
  obtain ⟨hlast, hall, hfollows⟩ :=
    h.foldl_answerOne backend state hattached (fun _ ha => ha) s.nodup_held
  refine ⟨hlast, ?_, hfollows⟩
  intro number hnumber
  refine (hall number).mpr ?_
  rw [← h.page] at hnumber
  by_cases hanswered : number ∈ s.answered
  · exact .inl hanswered
  · have hheld : (number, s.page.fetches[number]) ∈ s.held :=
      mem_held.mpr ⟨hanswered, List.getElem?_eq_getElem hnumber⟩
    exact .inr (List.mem_map_of_mem hheld)

end Session

theorem LivePage.fetches_run_answers {l : LivePage} {answers : List Move}
    (h : ∀ m ∈ answers, m.IsAnswer) :
    (l.run answers).page.fetches = l.page.fetches := by
  refine run_induction (P := fun next => next.page.fetches = l.page.fetches)
    (fun next m hm hnext => ?_) rfl
  obtain ⟨number, reply⟩ := h m hm
  cases hw : next.waiting? number with
  | none =>
      rw [step_answer_of_none hw]
      exact hnext
  | some fetch =>
      rw [step_answer_of_some hw]
      exact (Page.fetches_complete _ _).trans hnext

namespace Session

variable {s t : Session} {l : LivePage} {pending : List Move} {stored : StoredState}
variable {location : Location} {σ : Type} {backend : Backend σ}

/-- Settling answers all fetches and applies all messages, twice. -/
theorem settle_eq (backend : Backend σ) (s : Session) (state : σ) :
    (s.settle backend state).1 =
      ((s.answerAll backend state).1.drain.answerAll backend
        (s.answerAll backend state).2).1.drain := rfl

/-- Settling ends a run in which all messages have come and every fetch has been answered. Nothing
but those messages and answers comes up in it. -/
theorem Follows.settle (h : s.Follows l pending) (hattached : s.attached = true)
    (backend : Backend σ) (state : σ) :
    (s.settle backend state).1.attached = true ∧
      ∃ answers, (∀ m ∈ answers, m.IsAnswer) ∧
        (s.settle backend state).1.Follows (l.run (pending ++ answers)) [] ∧
        ∀ number, (l.run (pending ++ answers)).waiting? number = none := by
  -- The messages of the queue may ask for more, the answers do not.
  obtain ⟨hstill, -, first, hfirstAnswers, hfirst⟩ := h.answerAll backend state hattached
  have hdrained := hfirst.drain
  have hattached : (s.answerAll backend state).1.drain.attached = true := hstill
  obtain ⟨hlasting, hall, second, hanswers, hsecond⟩ :=
    hdrained.answerAll backend (s.answerAll backend state).2 hattached
  have hlast := hsecond.drain
  rw [List.nil_append, ← LivePage.run_append, List.append_assoc] at hlast
  rw [settle_eq]
  refine ⟨hlasting, first ++ second, List.forall_mem_append.mpr ⟨hfirstAnswers, hanswers⟩, hlast,
    ?_⟩
  intro number
  by_cases hissued : number < (l.run (pending ++ first)).page.fetches.length
  · rcases (hlast.answered number).mp (hall number hissued) with hanswered | hpending
    · exact LivePage.waiting?_of_mem hanswered
    · cases hpending
  · rw [← List.append_assoc, LivePage.run_append, LivePage.waiting?,
      LivePage.fetches_run_answers hanswers, List.getElem?_eq_none (Nat.le_of_not_lt hissued),
      ite_self]

/-- A session at rest: no message waits, and every fetch has been answered. -/
structure Settled (s : Session) (l : LivePage) : Prop where
  attached : s.attached = true
  follows : s.Follows l []
  idle : ∀ number, l.waiting? number = none

theorem Follows.settled (h : s.Follows l pending) (hattached : s.attached = true)
    (backend : Backend σ) (state : σ) :
    ∃ answers, (∀ m ∈ answers, m.IsAnswer) ∧
      (s.settle backend state).1.Settled (l.run (pending ++ answers)) := by
  obtain ⟨hstill, answers, hanswers, hsettled, hidle⟩ := h.settle hattached backend state
  exact ⟨answers, hanswers, hstill, hsettled, hidle⟩

/-- After one more event a session comes to rest again. -/
theorem Settled.dispatch (h : s.Settled l) (e : PageEvent) (backend : Backend σ) (state : σ) :
    ∃ answers, (∀ m ∈ answers, m.IsAnswer) ∧
      ((s.dispatch e).settle backend state).1.Settled ((l.step (.event e)).run answers) :=
  (h.follows.dispatch e).settled h.attached backend state

/-- What a session holds depends on the fetches of its page, and on which of them are answered. -/
theorem held_congr (hfetches : t.page.fetches = s.page.fetches)
    (hanswered : ∀ number, number ∈ t.answered ↔ number ∈ s.answered) : t.held = s.held := by
  rw [held, held, hfetches]
  exact List.filter_congr fun asked _ => by simp only [hanswered]

/-! ### Settling alike

Sessions that hold the same fetches get the same answers to them. So a relation between sessions
that comes to that, and goes on as answers are delivered and messages applied, goes on as both
settle. -/

section

variable {R : Session → Session → Prop} (hheld : ∀ {s t : Session}, R s t → t.held = s.held)
  (hdeliver : ∀ {s t : Session} (number : Nat) (completion : Completion), R s t →
    R (s.deliver number completion) (t.deliver number completion))
  (hdrain : ∀ {s t : Session}, R s t → R s.drain t.drain)

include hheld hdeliver

/-- The backend is asked the same in both sessions, and so it answers the same. -/
theorem answerAll_congr (h : R s t) (backend : Backend σ) (state : σ) :
    R (s.answerAll backend state).1 (t.answerAll backend state).1 ∧
      (t.answerAll backend state).2 = (s.answerAll backend state).2 := by
  rw [answerAll_eq, answerAll_eq, hheld h]
  generalize s.held = asked
  induction asked generalizing s t state with
  | nil => exact ⟨h, rfl⟩
  | cons a asked ih => exact ih (hdeliver a.1 (backend.complete state a.2).1 h) _

include hdrain

theorem settle_congr (h : R s t) (backend : Backend σ) (state : σ) :
    R (s.settle backend state).1 (t.settle backend state).1 ∧
      (t.settle backend state).2 = (s.settle backend state).2 := by
  obtain ⟨hfirst, hstate⟩ := answerAll_congr hheld hdeliver h backend state
  obtain ⟨hsecond, hlast⟩ := answerAll_congr hheld hdeliver (hdrain hfirst) backend
    (s.answerAll backend state).2
  constructor
  · rw [settle_eq, settle_eq, hstate]
    exact hdrain hsecond
  · calc (t.settle backend state).2
        = ((t.answerAll backend state).1.drain.answerAll backend
            (t.answerAll backend state).2).2 := rfl
      _ = ((t.answerAll backend state).1.drain.answerAll backend
            (s.answerAll backend state).2).2 := by rw [hstate]
      _ = ((s.answerAll backend state).1.drain.answerAll backend
            (s.answerAll backend state).2).2 := hlast
      _ = (s.settle backend state).2 := rfl

end

/-! ## Whole sessions -/

/-- What comes of a session on a stored state, until it is taken off. -/
inductive Reached (backend : Backend σ) (stored : StoredState) (location : Location) :
    Session → Prop
  | mount : Reached backend stored location (.mount stored location)
  | dispatch {s : Session} (h : Reached backend stored location s) (e : PageEvent) :
      Reached backend stored location (s.dispatch e)
  | send {s t : Session} {e : PageEvent} (h : Reached backend stored location s)
      (ht : s.send e = .ok t) : Reached backend stored location t
  | processNext {s : Session} (h : Reached backend stored location s) :
      Reached backend stored location s.processNext.1
  | answer {s t : Session} {state next : σ} {number : Nat}
      (h : Reached backend stored location s)
      (ht : s.answer? backend state number = some (t, next)) : Reached backend stored location t
  | settle {s : Session} (h : Reached backend stored location s) (state : σ) :
      Reached backend stored location (s.settle backend state).1

theorem attached_processNext (s : Session) : s.processNext.1.attached = s.attached := by
  unfold processNext
  split
  · rfl
  · rfl

theorem Reached.follows (h : Reached backend stored location s) :
    s.attached = true ∧
      ∃ moves pending, s.Follows ((LivePage.mount stored location).run moves) pending := by
  induction h with
  | mount => exact ⟨rfl, [], [], follows_mount stored location⟩
  | dispatch h e ih =>
      obtain ⟨hattached, moves, pending, hfollows⟩ := ih
      refine ⟨hattached, moves ++ [.event e], pending, ?_⟩
      rw [LivePage.run_append]
      exact hfollows.dispatch e
  | send h ht ih =>
      obtain ⟨-, moves, pending, hfollows⟩ := ih
      obtain ⟨hattached, hsent⟩ := hfollows.send ht
      exact ⟨hattached, moves, _, hsent⟩
  | processNext h ih =>
      obtain ⟨hattached, moves, pending, hfollows⟩ := ih
      obtain ⟨handled, rest, -, hnext⟩ := hfollows.processNext
      refine ⟨(attached_processNext _).trans hattached, moves ++ handled, rest, ?_⟩
      rw [LivePage.run_append]
      exact hnext
  | answer h ht ih =>
      obtain ⟨hattached, moves, pending, hfollows⟩ := ih
      obtain ⟨hstill, reply, hanswered⟩ := hfollows.answer? hattached ht
      exact ⟨hstill, moves, _, hanswered⟩
  | settle h state ih =>
      obtain ⟨hattached, moves, pending, hfollows⟩ := ih
      obtain ⟨hstill, answers, -, hsettled, -⟩ := hfollows.settle hattached backend state
      refine ⟨hstill, moves ++ (pending ++ answers), [], ?_⟩
      rw [LivePage.run_append]
      exact hsettled

/-- What a session stores, when all writes succeed, is what its run stores. -/
theorem storedState_eq (s : Session) (hpage : s.page = l.page) (stored : StoredState) :
    s.storedState stored = l.store stored fun _ => true := by
  rw [storedState, hpage, LivePage.store, StoredState.applyWritten_true]

/-- **Sessions end runs.** A session that is taken off has the page at the end of some run, and
what it has stored is what the run stores. A session that settles ends such a run too, after which
no message waits, nothing is in flight and no fetch is without an answer. -/
theorem Reached.ends_run (h : Reached backend stored location s) (state : σ) :
    (∃ moves, let l := (LivePage.mount stored location).run moves
      s.detach.page = l.page ∧ s.detach.storedState stored = l.store stored fun _ => true) ∧
    ∃ moves, let l := (LivePage.mount stored location).run moves
      let settled := (s.settle backend state).1
      settled.page = l.page ∧ settled.storedState stored = (l.store stored fun _ => true) ∧
        settled.queue = [] ∧ settled.page.inFlight = 0 ∧ ∀ number, l.waiting? number = none := by
  obtain ⟨hattached, moves, pending, hfollows⟩ := h.follows
  obtain ⟨-, answers, -, hsettled, hnone⟩ := hfollows.settle hattached backend state
  constructor
  · exact ⟨moves, hfollows.page, storedState_eq _ hfollows.page stored⟩
  · refine ⟨moves ++ (pending ++ answers), ?_⟩
    rw [LivePage.run_append]
    intro l settled
    have hpage : settled.page = l.page := hsettled.page
    have haccounts : l.Accounts := LivePage.accounts_run
      (LivePage.accounts_run (LivePage.accounts_mount stored location) moves) (pending ++ answers)
    refine ⟨hpage, storedState_eq settled hpage stored, hsettled.queue_eq_nil, ?_, hnone⟩
    rw [hpage]
    exact haccounts.inFlight_eq_zero hnone

end Session

end InstanceConsole

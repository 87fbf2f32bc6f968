import InstanceConsole.Proofs.Page.Commits
import InstanceConsole.Proofs.Page.Edits
import Mathlib.Data.List.Perm.Subperm

/-!
# Fetches of selections take effect once

Every fetch that has been issued is in flight until it is answered, and is answered once at most
(`Accounts`). The answer to a fetch for a new selection puts that selection in front; the answer
to an extension replaces one selection in its place, or is refused. Nothing else gives a selection
its queries, its count or its instances, so these three always stem from one request and its
answer, or from the stored entry (`mem_selections_run`).
-/

set_option autoImplicit false

namespace InstanceConsole

open SelectionList (Edit Carries)

namespace Page

/-! ## What is in flight -/

/-- On the way to another page some fetches are issued, and all of them are in flight then. -/
def Issues (p q : Page) : Prop :=
  ∃ issued, q.fetches = p.fetches ++ issued ∧ q.inFlight = p.inFlight + issued.length

variable {p q r : Page}

theorem issues_of_same (hfetches : q.fetches = p.fetches) (hinFlight : q.inFlight = p.inFlight) :
    Issues p q :=
  ⟨[], hfetches.trans (List.append_nil _).symm, hinFlight⟩

theorem Issues.trans (hpq : Issues p q) (hqr : Issues q r) : Issues p r := by
  obtain ⟨first, hfirst, hflight⟩ := hpq
  obtain ⟨second, hsecond, hmore⟩ := hqr
  refine ⟨first ++ second, ?_, ?_⟩
  · rw [hsecond, hfirst, List.append_assoc]
  · rw [hmore, hflight, List.length_append, Nat.add_assoc]

theorem issues_store (p : Page) (patch : StatePatch) : Issues p (p.store patch) := by
  rw [store_eq]
  exact issues_of_same rfl rfl

theorem issues_onLocation (p : Page) (search : String) : Issues p (p.onLocation search) := by
  unfold onLocation
  split
  · exact issues_of_same rfl rfl
  · unfold readSearch
    cases Filter.ofQuery search with
    | ok filter => exact ⟨_, rfl, rfl⟩
    | error e => exact ⟨_, rfl, rfl⟩

theorem issues_dispatch (p : Page) (e : PageEvent) : Issues p (p.dispatch e) := by
  refine dispatch_of_small_steps (R := Issues) Issues.trans issues_store ?_ ?_ issues_onLocation
    ?_ p e
  · exact fun _ _ _ => issues_of_same rfl rfl
  · intro q filter
    unfold pushFilter
    exact issues_of_same rfl rfl
  · exact fun _ _ fetch _ => ⟨[fetch], rfl, rfl⟩

theorem issues_mount (stored : StoredState) (location : Location) :
    Issues { snapshot := .ofStored stored, history := { current := location } }
      (mount stored location) := by
  unfold mount readSearch
  cases Filter.ofQuery location.search with
  | ok filter => exact ⟨_, rfl, rfl⟩
  | error e => exact ⟨_, rfl, rfl⟩

theorem inFlight_store (p : Page) (patch : StatePatch) : (p.store patch).inFlight = p.inFlight := by
  rw [store_eq]

theorem inFlight_complete (p : Page) (c : Completion) :
    (p.complete c).inFlight = p.inFlight - 1 := by
  have h := p.outcome_complete c
  generalize p.complete c = q at h ⊢
  cases h with
  | shown s hs hedit => rfl
  | counted token count hc hlatest => rw [inFlight_store]
  | edited edit s hc hfilter hs =>
      unfold commitSelections
      rw [inFlight_store]

end Page

namespace LivePage

variable {l : LivePage} {m : Move} {number : Nat} {fetch : Fetch}

/-- The books of a page: what is in flight and what has been answered make up the fetches that
were issued, and no fetch is answered twice. -/
structure Accounts (l : LivePage) : Prop where
  balance : l.page.inFlight + l.answered.length = l.page.fetches.length
  nodup : l.answered.Nodup
  lt_length : ∀ number ∈ l.answered, number < l.page.fetches.length

theorem accounts_of_issues {p : Page} (h : l.Accounts) (hissues : Page.Issues l.page p) :
    Accounts { page := p, answered := l.answered } := by
  obtain ⟨issued, hfetches, hinFlight⟩ := hissues
  have hlength : p.fetches.length = l.page.fetches.length + issued.length := by
    rw [hfetches, List.length_append]
  refine ⟨?_, h.nodup, ?_⟩
  · show p.inFlight + l.answered.length = p.fetches.length
    have hbalance := h.balance
    omega
  · intro number hnumber
    show number < p.fetches.length
    have hlt := h.lt_length number hnumber
    omega

theorem accounts_mount (stored : StoredState) (location : Location) :
    (mount stored location).Accounts := by
  have hunread : Accounts
      { page := { snapshot := .ofStored stored, history := { current := location } } } :=
    ⟨rfl, List.nodup_nil, by simp⟩
  exact accounts_of_issues hunread (Page.issues_mount stored location)

theorem lt_length_of_waiting? (h : l.waiting? number = some fetch) :
    number < l.page.fetches.length :=
  (List.getElem?_eq_some_iff.mp (getElem?_of_waiting? h)).1

/-- While a fetch waits for its answer, something is in flight. -/
theorem Accounts.inFlight_pos (h : l.Accounts) (hw : l.waiting? number = some fetch) :
    0 < l.page.inFlight := by
  -- The numbers of the fetches that have been answered, and this one, are different numbers of
  -- fetches that were issued.
  have hnodup : (number :: l.answered).Nodup :=
    List.nodup_cons.mpr ⟨notMem_answered_of_waiting? hw, h.nodup⟩
  have hsubset : number :: l.answered ⊆ List.range l.page.fetches.length := by
    intro n hn
    rw [List.mem_range]
    rcases List.mem_cons.mp hn with rfl | hn
    · exact lt_length_of_waiting? hw
    · exact h.lt_length n hn
  have hle : l.answered.length + 1 ≤ l.page.fetches.length := by
    simpa using (hnodup.subperm hsubset).length_le
  have hbalance := h.balance
  omega

/-- When no fetch waits for its answer, nothing is in flight. -/
theorem Accounts.inFlight_eq_zero (h : l.Accounts) (hnone : ∀ number, l.waiting? number = none) :
    l.page.inFlight = 0 := by
  have hsubset : List.range l.page.fetches.length ⊆ l.answered := by
    intro n hn
    by_contra hnot
    have hwaiting := hnone n
    rw [waiting?_of_notMem hnot, List.getElem?_eq_none_iff] at hwaiting
    have hlt := List.mem_range.mp hn
    omega
  have hle : l.page.fetches.length ≤ l.answered.length := by
    simpa using (List.nodup_range.subperm hsubset).length_le
  have hbalance := h.balance
  omega

theorem Accounts.step (h : l.Accounts) (m : Move) : (l.step m).Accounts := by
  cases m with
  | event e => exact accounts_of_issues h (l.page.issues_dispatch e)
  | visit location => exact accounts_of_issues h (Page.issues_of_same rfl rfl)
  | answer number reply =>
      cases hw : l.waiting? number with
      | none =>
          rw [step_answer_of_none hw]
          exact h
      | some fetch =>
          have hpos := h.inFlight_pos hw
          have hbalance := h.balance
          rw [step_answer_of_some hw]
          refine ⟨?_, List.nodup_cons.mpr ⟨notMem_answered_of_waiting? hw, h.nodup⟩, ?_⟩
          · rw [Page.inFlight_complete, Page.fetches_complete, List.length_cons]
            omega
          · intro n hn
            rw [Page.fetches_complete]
            rcases List.mem_cons.mp hn with rfl | hn
            · exact lt_length_of_waiting? hw
            · exact h.lt_length n hn

theorem accounts_run (h : l.Accounts) (moves : List Move) : (l.run moves).Accounts :=
  run_induction (P := Accounts) (fun _ m _ hnext => hnext.step m) h

/-- A fetch that has been answered never waits again. -/
theorem waiting?_run_answered (h : l.waiting? number = some fetch) (reply : Reply)
    (moves : List Move) : ((l.step (.answer number reply)).run moves).waiting? number = none := by
  have hanswered : number ∈ (l.step (.answer number reply)).answered := by
    rw [step_answer_of_some h]
    exact List.mem_cons_self
  exact waiting?_of_mem (answered_run moves hanswered)

/-! ## What an answer does -/

theorem selections_answer_of_error (l : LivePage) (number : Nat) {reply : Reply}
    {error : ClientError} (h : reply.details = .error error) :
    (l.step (.answer number reply)).selections = l.selections := by
  rw [selections, selections_step, edit?_answer_of_error h]
  rfl

/-- The answer to a fetch for a new selection puts it in front of the others. -/
theorem selections_answer_new {payload : SelectionPayload} {reply : Reply}
    {details : InstancesDetails} (h : l.waiting? number = some (.newSelection payload))
    (hreply : reply.details = .ok details) :
    ∃ s, (l.step (.answer number reply)).selections = s :: l.selections ∧
      Carries s payload details := by
  have hmakes : l.Makes (.answer number reply) (.new payload details) :=
    ⟨number, reply, rfl, h, hreply⟩
  let id := Counter.add l.page.snapshot.selections.rollingSelectionIndex 1
  refine ⟨.ofAnswer id payload details, ?_, rfl, rfl, rfl⟩
  rw [selections, selections_step_of_makes hmakes]
  rfl

/-- The answer to an extension replaces the first selection with the id in its place. -/
theorem selections_answer_extension {id : UInt64} {payload : SelectionPayload} {reply : Reply}
    {details : InstancesDetails} {s : Selection}
    (h : l.waiting? number = some (.extension id payload)) (hreply : reply.details = .ok details)
    (hs : l.page.snapshot.selections.get? id = some s) :
    ∃ before after, l.selections = before ++ s :: after ∧ (∀ b ∈ before, b.selectionId ≠ id) ∧
      (l.step (.answer number reply)).selections =
        before ++ s.merged payload details :: after := by
  have hmakes : l.Makes (.answer number reply) (.merge id payload details) :=
    ⟨number, reply, rfl, h, hreply⟩
  obtain ⟨before, after, hsplit, hbefore, hedit⟩ :=
    SelectionList.selections_edit_merge hs payload details
  refine ⟨before, after, hsplit, hbefore, ?_⟩
  rw [selections, selections_step_of_makes hmakes, hedit]

/-- The answer to an extension of a selection that is gone is refused. -/
theorem snapshot_answer_extension_of_none {id : UInt64} {payload : SelectionPayload}
    {reply : Reply} {details : InstancesDetails}
    (h : l.waiting? number = some (.extension id payload)) (hreply : reply.details = .ok details)
    (hs : l.page.snapshot.selections.get? id = none) :
    (l.step (.answer number reply)).page.snapshot =
      l.page.snapshot.withError (.selectionNotFound id) := by
  rw [step_answer_of_some h]
  simp only [Fetch.completion, hreply, Page.complete, Page.applyCompletion,
    Snapshot.withMergedSelection, SelectionList.withMerged, hs]
  rfl

/-! ## Where selections stem from -/

/-- A move answers a fetch whose answer brings a selection, and the selection carries what the
fetch asked for and what the answer says. -/
def Brings (l : LivePage) (m : Move) (s : Selection) : Prop :=
  ∃ number reply fetch payload details, m = .answer number reply ∧
    l.waiting? number = some fetch ∧
    (fetch = .newSelection payload ∨ fetch = .extension s.selectionId payload) ∧
    reply.details = .ok details ∧ Carries s payload details

theorem mem_selections_step {s : Selection} (h : s ∈ (l.step m).selections) :
    s ∈ l.selections ∨ l.Brings m s := by
  rw [selections, selections_step] at h
  cases hedit : l.edit? m with
  | none =>
      rw [hedit] at h
      exact .inl h
  | some e =>
      rw [hedit] at h
      rcases SelectionList.mem_edit h with h | ⟨payload, details, he, hcarries⟩
      · exact .inl h
      · have hmakes := makes_of_edit? hedit
        rcases he with rfl | rfl
        · obtain ⟨number, reply, rfl, hwaiting, hreply⟩ := hmakes
          exact .inr ⟨number, reply, _, payload, details, rfl, hwaiting, .inl rfl, hreply, hcarries⟩
        · obtain ⟨number, reply, rfl, hwaiting, hreply⟩ := hmakes
          exact .inr ⟨number, reply, _, payload, details, rfl, hwaiting, .inr rfl, hreply, hcarries⟩

/-- A selection of a page was there before the run, or a move of the run has brought it. -/
theorem mem_selections_run {moves : List Move} {s : Selection}
    (h : s ∈ (l.run moves).selections) :
    s ∈ l.selections ∨ ∃ before m after, moves = before ++ m :: after ∧
      (l.run before).Brings m s := by
  induction moves generalizing l with
  | nil => exact .inl h
  | cons m moves ih =>
      rcases ih h with h | ⟨before, next, after, hsplit, hbrings⟩
      · rcases mem_selections_step h with h | hbrings
        · exact .inl h
        · exact .inr ⟨[], m, moves, rfl, hbrings⟩
      · exact .inr ⟨m :: before, next, after, by rw [hsplit]; rfl, hbrings⟩

theorem selections_mount (stored : StoredState) (location : Location) :
    (mount stored location).selections = stored.selections := by
  rw [selections, (snapshot_mount stored location).2]
  rfl

/-- **Fetches of selections take effect once.** Mount a page and let anything happen. What is in
flight are the fetches that were issued less those that were answered. When a fetch that waits is
answered there is one less in flight, and it never waits again. The answer to a fetch for a new
selection puts one in front that carries the payload of the fetch and the answer. The answer to an
extension puts those into the first selection with the id, in its place, or is refused when there
is none; and a failed one changes no selection. So each selection is a stored one, or carries what
a single fetch asked for and its answer says. -/
theorem selection_fetches_take_effect_once (stored : StoredState) (location : Location)
    (moves : List Move) :
    let start := mount stored location
    let l := start.run moves
    l.page.inFlight + l.answered.length = l.page.fetches.length ∧ l.answered.Nodup ∧
    (∀ number reply fetch, l.waiting? number = some fetch →
      let next := l.step (.answer number reply)
      next.page.inFlight + 1 = l.page.inFlight ∧
      (∀ more, (next.run more).waiting? number = none) ∧
      (∀ error, reply.details = .error error → next.selections = l.selections) ∧
      ∀ details, reply.details = .ok details →
        (∀ payload, fetch = .newSelection payload →
          ∃ s, next.selections = s :: l.selections ∧ Carries s payload details) ∧
        ∀ id payload, fetch = .extension id payload →
          (∃ before s t after, l.selections = before ++ s :: after ∧
            (∀ b ∈ before, b.selectionId ≠ id) ∧ s.selectionId = id ∧
            next.selections = before ++ t :: after ∧ t.selectionId = id ∧
            Carries t payload details) ∨
          (∀ s ∈ l.selections, s.selectionId ≠ id) ∧
            next.page.snapshot = l.page.snapshot.withError (.selectionNotFound id)) ∧
    ∀ s ∈ l.selections, s ∈ stored.selections ∨
      ∃ before m after, moves = before ++ m :: after ∧ (start.run before).Brings m s := by
  intro start l
  have haccounts : l.Accounts := accounts_run (accounts_mount stored location) moves
  refine ⟨haccounts.balance, haccounts.nodup, ?_, ?_⟩
  · intro number reply fetch hwaiting next
    refine ⟨?_, waiting?_run_answered hwaiting reply, ?_, ?_⟩
    · have hpos := haccounts.inFlight_pos hwaiting
      have hnext : next.page.inFlight = l.page.inFlight - 1 := by
        show (l.step (.answer number reply)).page.inFlight = _
        rw [step_answer_of_some hwaiting, Page.inFlight_complete]
      omega
    · intro error hreply
      exact selections_answer_of_error l number hreply
    · intro details hreply
      constructor
      · rintro payload rfl
        exact selections_answer_new hwaiting hreply
      · rintro id payload rfl
        cases hs : l.page.snapshot.selections.get? id with
        | none =>
            refine .inr ⟨?_, snapshot_answer_extension_of_none hwaiting hreply hs⟩
            intro s hmem
            simpa using List.find?_eq_none.mp hs s hmem
        | some s =>
            obtain ⟨before, after, hsplit, hbefore, hnext⟩ :=
              selections_answer_extension hwaiting hreply hs
            have hid := SelectionList.selectionId_of_get? hs
            have hcarries : Carries (s.merged payload details) payload details := ⟨rfl, rfl, rfl⟩
            exact .inl ⟨before, s, _, after, hsplit, hbefore, hid, hnext, hid, hcarries⟩
  · intro s hs
    rcases mem_selections_run hs with hold | hbrings
    · rw [selections_mount] at hold
      exact .inl hold
    · exact .inr hbrings

end LivePage

end InstanceConsole

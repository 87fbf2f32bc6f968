import InstanceConsole.Proofs.Page.Errors
import InstanceConsole.Proofs.Page.QueuedUpdates

/-!
# Answers in either order

The answer to a count and the answer to a question about selections change different parts of the
page, and store different parts of the state. Either may also be reported as failed, in the one
error message that there is. As long as not both are, it makes no difference which of them comes
first (`Page.agrees_complete_comm`), but for the order in which their updates are queued.
-/

set_option autoImplicit false

namespace InstanceConsole

/-- The count of the filter and the selections are stored in different fields. -/
theorem StoredState.apply_ofFilterCount_ofSelections (s : StoredState) (n : UInt64)
    (l : SelectionList) :
    (s.apply (.ofFilterCount n)).apply (.ofSelections l) =
      (s.apply (.ofSelections l)).apply (.ofFilterCount n) := rfl

/-- An answer about selections leads from each snapshot to the next one, or to an error. It reads
and changes neither the count of the filter nor the error message. -/
structure Completion.LeadsBy (c : Completion) (next : Snapshot → Except PageError Snapshot) :
    Prop where
  complete : ∀ p : Page,
    p.complete c = { p with inFlight := p.inFlight - 1 }.commitSelections (next p.snapshot)
  failure : ∀ p : Page, p.failure? c = none → ∃ s, next p.snapshot = .ok s
  withFilterCount : ∀ s n, next (s.withFilterCount n) = (next s).map (·.withFilterCount n)
  withError : ∀ s error, next (s.withError error) = (next s).map (·.withError error)

namespace Completion

theorem leadsBy_failed {c : Completion} {error : PageError}
    (hcomplete : ∀ p : Page,
      p.complete c = { p with inFlight := p.inFlight - 1 }.commitSelections (.error error))
    (hfailure : ∀ p : Page, p.failure? c = some error) : c.LeadsBy fun _ => .error error where
  complete := hcomplete
  failure p h := by
    rw [hfailure] at h
    cases h
  withFilterCount _ _ := rfl
  withError _ _ := rfl

theorem leadsBy_extension (id : UInt64) (payload : SelectionPayload) (details : InstancesDetails) :
    (extension id payload (.ok details)).LeadsBy
      fun s => s.withMergedSelection id payload details where
  complete _ := rfl
  failure p h := by
    simp only [Page.failure?] at h
    split at h
    · cases h
    · next hget =>
        obtain ⟨existing, hexisting⟩ := Option.ne_none_iff_exists'.mp hget
        simp only [Snapshot.withMergedSelection, SelectionList.withMerged, hexisting]
        exact ⟨_, rfl⟩
  withFilterCount s n := by
    simp only [Snapshot.withMergedSelection, Snapshot.withFilterCount]
    cases s.selections.withMerged id payload details with
    | error e => rfl
    | ok selections => rfl
  withError s error := by
    simp only [Snapshot.withMergedSelection, Snapshot.withError]
    cases s.selections.withMerged id payload details with
    | error e => rfl
    | ok selections => rfl

end Completion

/-- The answers to all fetches but the counts are of that kind. -/
theorem Fetch.exists_leadsBy {fetch : Fetch}
    (h : ∀ token criteria, fetch ≠ .count token criteria) (reply : Reply) :
    ∃ next, (fetch.completion reply).LeadsBy next := by
  cases fetch with
  | count token criteria => exact absurd rfl (h token criteria)
  | newSelection payload =>
      unfold Fetch.completion
      cases reply.details with
      | error e => exact ⟨_, Completion.leadsBy_failed (fun _ => rfl) fun _ => rfl⟩
      | ok details =>
          exact ⟨fun s => .ok (s.withNewSelection payload details), fun _ => rfl,
            fun _ _ => ⟨_, rfl⟩, fun _ _ => rfl, fun _ _ => rfl⟩
  | extension id payload =>
      unfold Fetch.completion
      cases reply.details with
      | error e => exact ⟨_, Completion.leadsBy_failed (fun _ => rfl) fun _ => rfl⟩
      | ok details => exact ⟨_, Completion.leadsBy_extension id payload details⟩

namespace Page

variable {p : Page} {token : UInt64} {next : Snapshot → Except PageError Snapshot}

theorem commitSelections_ok (p : Page) (s : Snapshot) :
    p.commitSelections (.ok s) =
      { p with snapshot := s, writes := p.writes ++ [.ofSelections s.selections] } :=
  store_patch { p with snapshot := s } .selections s

theorem complete_count_ok (h : p.counts.isLatest token = true) (n : UInt64) :
    p.complete (.count token (.ok n)) =
      { p with
        snapshot := p.snapshot.withFilterCount n
        inFlight := p.inFlight - 1
        writes := p.writes ++ [.ofFilterCount n] } := by
  rw [complete, applyCompletion, if_pos h]
  exact store_patch _ .filterCount (p.snapshot.withFilterCount n)

theorem complete_count_error (h : p.counts.isLatest token = true) (e : ClientError) :
    p.complete (.count token (.error e)) =
      { p with inFlight := p.inFlight - 1 }.showError (.fetch e) :=
  complete_of_failure (if_pos h)

theorem counts_complete (p : Page) (c : Completion) : (p.complete c).counts = p.counts := by
  have h := p.outcome_complete c
  generalize p.complete c = q at h ⊢
  cases h with
  | shown s hs hedit => rfl
  | counted token count hc hlatest => rw [store_eq]
  | edited edit s hc hfilter hs => rw [commitSelections_ok]

/-- **The answer to a count and one about selections** may come in either order, unless both are
reported as failed. -/
theorem agrees_complete_comm {c : Completion} (hc : c.LeadsBy next)
    {result : Except ClientError UInt64}
    (hone : p.failure? (.count token result) = none ∨ p.failure? c = none) :
    ((p.complete (.count token result)).complete c).Agrees
      ((p.complete c).complete (.count token result)) := by
  have hcounts : (p.complete c).counts.isLatest token = p.counts.isLatest token := by
    rw [counts_complete]
  cases hlatest : p.counts.isLatest token with
  | false =>
      rw [complete_of_not_latest hlatest, complete_of_not_latest (hcounts.trans hlatest),
        hc.complete, hc.complete]
      cases next p.snapshot with
      | error error => exact Agrees.refl _
      | ok s =>
          rw [commitSelections_ok, commitSelections_ok]
          exact Agrees.refl _
  | true =>
      cases result with
      | error e =>
          -- The count is reported as failed, and so the other answer is not.
          obtain ⟨s, hs⟩ : ∃ s, next p.snapshot = .ok s := by
            refine hc.failure p (hone.resolve_left ?_)
            simp [failure?, hlatest]
          have hreported : next (p.snapshot.withError (.fetch e)) =
              .ok (s.withError (.fetch e)) := by
            rw [hc.withError, hs]
            rfl
          rw [complete_count_error hlatest, complete_count_error (hcounts.trans hlatest),
            hc.complete, hc.complete, hs]
          simp only [showError, hreported, commitSelections_ok]
          exact Agrees.refl _
      | ok n =>
          rw [complete_count_ok hlatest, complete_count_ok (hcounts.trans hlatest),
            hc.complete, hc.complete]
          simp only [hc.withFilterCount]
          cases next p.snapshot with
          | error error => exact Agrees.refl _
          | ok s =>
              simp only [Except.map, commitSelections_ok]
              refine ⟨rfl, fun stored => ?_⟩
              simp only [List.foldl_append, List.foldl_cons, List.foldl_nil]
              exact (StoredState.apply_ofFilterCount_ofSelections _ _ _).symm

/-! ### Which answers fail -/

theorem failure?_count_complete (p : Page) (c : Completion) (token : UInt64)
    (result : Except ClientError UInt64) :
    (p.complete c).failure? (.count token result) = p.failure? (.count token result) := by
  cases result with
  | ok n => rfl
  | error e => simp only [failure?, counts_complete]

theorem failure?_complete_count (p : Page) (token : UInt64) (result : Except ClientError UInt64)
    (c : Completion) : (p.complete (.count token result)).failure? c = p.failure? c := by
  cases c with
  | count other result' => exact failure?_count_complete p _ other result'
  | newSelection payload result => cases result <;> rfl
  | extension id payload result' =>
      cases result' with
      | error e => rfl
      | ok details =>
          have hselections : (p.complete (.count token result)).snapshot.selections =
              p.snapshot.selections := selections_complete p (.count token result)
          simp only [failure?, hselections]

end Page

namespace LivePage

variable {l : LivePage} {i j : Nat} {token : UInt64} {criteria : Criteria} {fetch : Fetch}

theorem step_answer_step_answer {first second : Fetch} (hfirst : l.waiting? i = some first)
    (hsecond : l.waiting? j = some second) (hne : i ≠ j) (r s : Reply) :
    (l.step (.answer i r)).step (.answer j s) =
      { page := (l.page.complete (first.completion r)).complete (second.completion s)
        answered := j :: i :: l.answered } := by
  have hother : ∀ reply, Move.answer i r ≠ .answer j reply := by
    rintro reply heq
    cases heq
    exact hne rfl
  rw [step_answer_of_some (waiting?_step hsecond hother), step_answer_of_some hfirst]

/-- **Independent answers commute.** In any state of a page let a count and a question about
selections wait for their answers, and let not both of these be reported as failed. Which of them
are does not depend on their order. Nor does the page that they lead to, but for the order in which
it has queued its updates, nor which fetches wait then, nor what is stored when no write fails. A
session in which both answers are the next messages comes to one of these pages, and from there it
settles alike, with the same answers of the backend and the same stored state. -/
theorem independent_completions_commute (count details : Reply)
    (hcount : l.waiting? i = some (.count token criteria)) (hdetails : l.waiting? j = some fetch)
    (hfetch : ∀ token criteria, fetch ≠ .count token criteria)
    (hone : l.page.failure? (.count token count.count) = none ∨
      l.page.failure? (fetch.completion details) = none) :
    let counted := l.step (.answer i count)
    let detailed := l.step (.answer j details)
    let countFirst := counted.step (.answer j details)
    let detailsFirst := detailed.step (.answer i count)
    detailed.page.failure? (.count token count.count) =
      l.page.failure? (.count token count.count) ∧
    counted.page.failure? (fetch.completion details) =
      l.page.failure? (fetch.completion details) ∧
    detailsFirst.page = { countFirst.page with writes := detailsFirst.page.writes } ∧
    (∀ number, detailsFirst.waiting? number = countFirst.waiting? number) ∧
    (∀ initial, (detailsFirst.store initial fun _ => true) =
      countFirst.store initial fun _ => true) ∧
    ∀ {σ : Type} (backend : Backend σ) (state : σ) {s t : Session} {pending : List Move},
      s.Follows l (.answer i count :: .answer j details :: pending) →
      t.Follows l (.answer j details :: .answer i count :: pending) → t.attached = s.attached →
        let s := s.processNext.1.processNext.1
        let t := t.processNext.1.processNext.1
        s.page = countFirst.page ∧ t.page = detailsFirst.page ∧ t.held = s.held ∧
        let settled := (s.settle backend state).1
        let other := (t.settle backend state).1
        other.page = { settled.page with writes := other.page.writes } ∧
        (t.settle backend state).2 = (s.settle backend state).2 ∧
        ∀ initial, other.storedState initial = settled.storedState initial := by
  intro counted detailed countFirst detailsFirst
  have hne : i ≠ j := by
    rintro rfl
    exact hfetch token criteria (Option.some.inj (hdetails.symm.trans hcount))
  have hcountFirst := step_answer_step_answer hcount hdetails hne count details
  have hdetailsFirst := step_answer_step_answer hdetails hcount hne.symm details count
  obtain ⟨next, hnext⟩ := fetch.exists_leadsBy hfetch details
  have hagrees : countFirst.Agrees detailsFirst := by
    simp only [countFirst, detailsFirst, counted, detailed, hcountFirst, hdetailsFirst]
    refine ⟨Page.agrees_complete_comm hnext hone, fun number => ?_⟩
    simp only [List.mem_cons]
    exact or_left_comm
  refine ⟨?_, ?_, Page.eq_of_withoutWrites hagrees.page.withoutWrites, hagrees.waiting?,
    hagrees.store, ?_⟩
  · simp only [detailed, step_answer_of_some hdetails]
    exact Page.failure?_count_complete _ _ token count.count
  · simp only [counted, step_answer_of_some hcount]
    exact Page.failure?_complete_count _ token count.count _
  · intro σ backend state s t pending hs ht hattached s' t'
    have hs' : s'.Follows countFirst pending := hs.processNext_cons.processNext_cons
    have ht' : t'.Follows detailsFirst pending := ht.processNext_cons.processNext_cons
    have hstill : t'.attached = s'.attached := by
      simp only [s', t', Session.attached_processNext, hattached]
    have hsessions := hs'.agrees ht' hagrees hstill
    obtain ⟨hsettled, hstate⟩ := hsessions.settle backend state
    exact ⟨hs'.page, ht'.page, hsessions.held,
      Page.eq_of_withoutWrites hsettled.page.withoutWrites, hstate, hsettled.storedState⟩

open ExtensionRequest (pickOnly)

/-- A new selection is asked for while the first count is out, and both come back with one instance.
The updates are queued in the order of the answers, and all else is the same. -/
theorem independent_completions_commute_new :
    let l := (mount {} ⟨"/instances", ""⟩).run [pickOnly "a", .event .addNewSelection]
    let reply : Reply := { count := .ok 1, details := .ok { totalCount := 1 } }
    let countFirst := (l.step (.answer 0 reply)).step (.answer 1 reply)
    let detailsFirst := (l.step (.answer 1 reply)).step (.answer 0 reply)
    detailsFirst.page.writes = countFirst.page.writes.reverse ∧
    detailsFirst.page = { countFirst.page with writes := countFirst.page.writes.reverse } ∧
    (detailsFirst.store {} fun _ => true) = countFirst.store {} fun _ => true := by
  intro l reply countFirst detailsFirst
  let payload : SelectionPayload := .ofFragment .default { ids := ⟨["a"], by simp⟩ } none
  obtain ⟨hcount, hdetails, hwrites⟩ : l.waiting? 0 = some (.count 1 Filter.default.criteria) ∧
      l.waiting? 1 = some (.newSelection payload) ∧
      detailsFirst.page.writes = countFirst.page.writes.reverse := by
    decide +kernel
  obtain ⟨-, -, hpage, -, hstore, -⟩ :=
    independent_completions_commute reply reply hcount hdetails (by simp) (.inl rfl)
  refine ⟨hwrites, ?_, hstore {}⟩
  rw [← hwrites]
  exact hpage

end LivePage

end InstanceConsole

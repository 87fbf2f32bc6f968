import InstanceConsole.Proofs.Page.Extension
import InstanceConsole.Proofs.Page.SelectionFetches

/-!
# What an error changes

An event that asks for what cannot be done is refused, and a fetch may fail or come back to a page
that has changed meanwhile. Either is reported in the error message, and is no change beside it:
what the page shows, where the router stands, which updates wait to be stored and which fetches
wait for an answer are what they were. Only the fetch that has failed is no longer in flight.
-/

set_option autoImplicit false

namespace InstanceConsole

namespace Page

variable {p : Page} {error : PageError}

/-! ## Refused events -/

/-- Why the selection in progress cannot join a selection. -/
def addToRefusal? (p : Page) (id : UInt64) : Option PageError :=
  if p.snapshot.selections.get? id = none then some (.selectionNotFound id)
  else if p.snapshot.selection.isEmpty then some .emptySelection
  else none

/-- Why an event is refused: it names a selection that does not exist, or the open one while none
is open, or adds a selection in progress that is empty. -/
def refusal? (p : Page) : PageEvent → Option PageError
  | .addNewSelection => if p.snapshot.selection.isEmpty then some .emptySelection else none
  | .addToSelection id => p.addToRefusal? id
  | .addToOpenSelection =>
      match p.snapshot.openSelection with
      | none => some .noOpenSelection
      | some id => p.addToRefusal? id
  | .toggleOpenSelection id | .removeSelection id =>
      if p.snapshot.selections.get? id = none then some (.selectionNotFound id) else none
  | _ => none

theorem addTo_of_refusal {id : UInt64} (h : p.addToRefusal? id = some error) :
    p.addTo id = p.showError error := by
  unfold addToRefusal? at h
  unfold addTo
  cases hget : p.snapshot.selections.get? id with
  | none =>
      rw [if_pos hget] at h
      rw [Option.some.inj h]
  | some existing =>
      rw [if_neg (by simp [hget])] at h
      split at h
      · next hempty => simp only [if_pos hempty, Option.some.inj h]
      · cases h

/-- A refused event reports the refusal, and nothing else comes of it. -/
theorem dispatch_of_refusal {e : PageEvent} (h : p.refusal? e = some error) :
    p.dispatch e = p.showError error := by
  unfold refusal? at h
  cases e with
  | addNewSelection =>
      dsimp only at h
      simp only [dispatch, addNew]
      split at h
      · next hempty => rw [if_pos hempty, Option.some.inj h]
      · cases h
  | addToSelection id => exact addTo_of_refusal h
  | addToOpenSelection =>
      dsimp only at h
      unfold dispatch
      cases hopen : p.snapshot.openSelection with
      | none =>
          rw [hopen] at h
          rw [Option.some.inj h]
      | some id =>
          rw [hopen] at h
          exact addTo_of_refusal h
  | toggleOpenSelection id =>
      dsimp only at h
      split at h
      · next hget =>
          simp only [dispatch, Snapshot.withOpenToggled, hget, commit, Option.some.inj h]
      · cases h
  | removeSelection id =>
      dsimp only at h
      split at h
      · next hget =>
          simp only [dispatch, Snapshot.withoutSelection, SelectionList.without, hget,
            commitSelections, PageError.ofSelectionError, Option.some.inj h]
      · cases h
  | _ => cases h

/-! ## Failed fetches -/

/-- Why the answer to a fetch cannot be used: the fetch has failed, or the selection that it was
to extend has been removed. A count that is not the latest is not used anyway. -/
def failure? (p : Page) : Completion → Option PageError
  | .count token (.error e) => if p.counts.isLatest token then some (.fetch e) else none
  | .newSelection _ (.error e) => some (.fetch e)
  | .extension _ _ (.error e) => some (.fetch e)
  | .extension id _ (.ok _) =>
      if p.snapshot.selections.get? id = none then some (.selectionNotFound id) else none
  | _ => none

/-- A failed fetch is reported and no longer in flight, and nothing else comes of it. -/
theorem complete_of_failure {c : Completion} (h : p.failure? c = some error) :
    p.complete c = { p with inFlight := p.inFlight - 1 }.showError error := by
  cases c with
  | count token result =>
      cases result with
      | ok count => cases h
      | error e =>
          simp only [failure?] at h
          split at h
          · next hlatest =>
              simp only [complete, applyCompletion, if_pos hlatest, Option.some.inj h]
          · cases h
  | newSelection payload result =>
      cases result with
      | ok details => cases h
      | error e =>
          obtain rfl := Option.some.inj h
          rfl
  | extension id payload result =>
      cases result with
      | error e =>
          obtain rfl := Option.some.inj h
          rfl
      | ok details =>
          simp only [failure?] at h
          split at h
          · next hget =>
              simp only [complete, applyCompletion, Snapshot.withMergedSelection,
                SelectionList.withMerged, hget, commitSelections, PageError.ofSelectionError,
                Option.some.inj h]
          · cases h

/-- The answer to a count that is not the latest is dropped. -/
theorem complete_of_not_latest {token : UInt64} (h : p.counts.isLatest token = false)
    (result : Except ClientError UInt64) :
    p.complete (.count token result) = { p with inFlight := p.inFlight - 1 } := by
  simp only [complete, applyCompletion]
  rw [if_neg (by simp [h])]

/-! ## What else shows an error -/

theorem errorMessage_addTo_of_none {id : UInt64} (h : p.addToRefusal? id = none) :
    (p.addTo id).snapshot.errorMessage = p.snapshot.errorMessage := by
  unfold addToRefusal? at h
  unfold addTo
  cases hget : p.snapshot.selections.get? id with
  | none =>
      rw [if_pos hget] at h
      cases h
  | some existing =>
      rw [if_neg (by simp [hget])] at h
      split at h
      · cases h
      · next hempty =>
          simp only [if_neg hempty]
          rfl

/-- An event that is not refused shows no error; it may take away the one that is shown. -/
theorem errorMessage_dispatch_of_none {e : PageEvent} (h : p.refusal? e = none)
    (hdismiss : e ≠ .dismissError) :
    (p.dispatch e).snapshot.errorMessage = p.snapshot.errorMessage := by
  unfold refusal? at h
  cases e with
  | locationChanged location =>
      rw [dispatch, snapshot_onLocation]
      rfl
  | filterChanged patch =>
      rw [dispatch, snapshot_applyFilter]
      rfl
  | filterReset =>
      rw [dispatch, snapshot_applyFilter]
      rfl
  | addNewSelection =>
      dsimp only at h
      split at h
      · cases h
      · next hempty =>
          simp only [dispatch, addNew, if_neg hempty]
          rfl
  | addToSelection id => exact errorMessage_addTo_of_none h
  | addToOpenSelection =>
      dsimp only at h
      unfold dispatch
      cases hopen : p.snapshot.openSelection with
      | none =>
          rw [hopen] at h
          cases h
      | some id =>
          rw [hopen] at h
          exact errorMessage_addTo_of_none h
  | toggleOpenSelection id =>
      dsimp only at h
      split at h
      · cases h
      · next hget =>
          obtain ⟨s, hs⟩ := Option.ne_none_iff_exists'.mp hget
          simp only [dispatch, Snapshot.withOpenToggled, hs]
          rfl
  | removeSelection id =>
      dsimp only at h
      split at h
      · cases h
      · next hget =>
          obtain ⟨s, hs⟩ := Option.ne_none_iff_exists'.mp hget
          simp only [dispatch, Snapshot.withoutSelection, SelectionList.without, hs,
            snapshot_commitSelections_ok]
  | dismissError => exact absurd rfl hdismiss
  | _ => rfl

/-- An answer that can be used shows no error. -/
theorem errorMessage_complete_of_none {c : Completion} (h : p.failure? c = none) :
    (p.complete c).snapshot.errorMessage = p.snapshot.errorMessage := by
  cases c with
  | count token result =>
      cases hlatest : p.counts.isLatest token with
      | false => rw [complete_of_not_latest hlatest]
      | true =>
          cases result with
          | error e =>
              simp only [failure?] at h
              rw [if_pos hlatest] at h
              cases h
          | ok count =>
              simp only [complete, applyCompletion]
              rw [if_pos hlatest, snapshot_store]
              rfl
  | newSelection payload result =>
      cases result with
      | error e => cases h
      | ok details =>
          simp only [complete, applyCompletion, snapshot_commitSelections_ok]
          rfl
  | extension id payload result =>
      cases result with
      | error e => cases h
      | ok details =>
          simp only [failure?] at h
          split at h
          · cases h
          · next hget =>
              obtain ⟨s, hs⟩ := Option.ne_none_iff_exists'.mp hget
              simp only [complete, applyCompletion, Snapshot.withMergedSelection,
                SelectionList.withMerged, hs, snapshot_commitSelections_ok]

end Page

namespace LivePage

/-- **Errors leave everything else alone.** Mount a page and let anything happen. A refused event
sets the error message and changes nothing else, neither the page nor which fetches wait. A failed
answer to a fetch that waits does the same, and that fetch is answered and no longer in flight. No
other event or answer shows an error. The answer to a count that is not the latest changes only
what is in flight. -/
theorem errors_leave_the_rest (stored : StoredState) (location : Location) (moves : List Move) :
    let l := (mount stored location).run moves
    let reporting (error : PageError) : Snapshot :=
      { l.page.snapshot with errorMessage := some error.message }
    (∀ e error, l.page.refusal? e = some error →
      l.step (.event e) = { l with page := { l.page with snapshot := reporting error } }) ∧
    (∀ e, l.page.refusal? e = none → e ≠ .dismissError →
      (l.step (.event e)).page.snapshot.errorMessage = l.page.snapshot.errorMessage) ∧
    ∀ number fetch reply, l.waiting? number = some fetch →
      let next := l.step (.answer number reply)
      let answered := number :: l.answered
      ∃ inFlight, inFlight + 1 = l.page.inFlight ∧
        (∀ error, l.page.failure? (fetch.completion reply) = some error →
          next = { page := { l.page with snapshot := reporting error, inFlight }, answered }) ∧
        (l.page.failure? (fetch.completion reply) = none →
          next.page.snapshot.errorMessage = l.page.snapshot.errorMessage) ∧
        ∀ token criteria, fetch = .count token criteria → l.page.counts.isLatest token = false →
          next = { page := { l.page with inFlight }, answered } := by
  intro l reporting
  refine ⟨?_, ?_, ?_⟩
  · intro e error hrefusal
    simp only [step, Page.dispatch_of_refusal hrefusal]
    rfl
  · intro e hrefusal hdismiss
    exact Page.errorMessage_dispatch_of_none hrefusal hdismiss
  · intro number fetch reply hwaiting next answered
    have haccounts : l.Accounts := accounts_run (accounts_mount stored location) moves
    have hpos := haccounts.inFlight_pos hwaiting
    have hnext : next = { page := l.page.complete (fetch.completion reply), answered } :=
      step_answer_of_some hwaiting reply
    refine ⟨l.page.inFlight - 1, by omega, ?_, ?_, ?_⟩
    · intro error hfailure
      rw [hnext, Page.complete_of_failure hfailure]
      rfl
    · intro hfailure
      rw [hnext]
      exact Page.errorMessage_complete_of_none hfailure
    · rintro token criteria rfl hold
      rw [hnext]
      exact congrArg (LivePage.mk · answered) (Page.complete_of_not_latest hold reply.count)

open ExtensionRequest (pickOnly oneInstance)

/-- The filter changes while the first count is out, and a selection is removed while its extension
is out. Adding to it is refused then, its extension fails, and the first count is dropped. -/
theorem errors_leave_the_rest_overtaken :
    let stored : StoredState := { selections := [{ selectionId := 1, totalCount := 0 }] }
    let moves := [.event (.filterChanged { completed := some true }), pickOnly "a",
      .event (.addToSelection 1), .event (.removeSelection 1)]
    let l := (mount stored ⟨"/instances", ""⟩).run moves
    let reporting := l.page.snapshot.withError (.selectionNotFound 1)
    l.step (.event (.addToSelection 1)) =
        { l with page := { l.page with snapshot := reporting } } ∧
      l.step (.answer 2 oneInstance) =
        { page := { l.page with snapshot := reporting, inFlight := 2 },
          answered := 2 :: l.answered } ∧
      l.step (.answer 0 oneInstance) =
        { page := { l.page with inFlight := 2 }, answered := 0 :: l.answered } := by
  intro stored moves l reporting
  let payload : SelectionPayload := .ofFragment { Filter.default with completed := some true }
    { ids := ⟨["a"], by simp⟩ } (some { selectionId := 1, totalCount := 0 })
  obtain ⟨hcount, hextension, hrefusal, hfailure, holder, hinFlight⟩ :
      l.waiting? 0 = some (.count 1 Filter.default.criteria) ∧
      l.waiting? 2 = some (.extension 1 payload) ∧
      l.page.refusal? (.addToSelection 1) = some (.selectionNotFound 1) ∧
      l.page.failure? (.extension 1 payload oneInstance.details) = some (.selectionNotFound 1) ∧
      l.page.counts.isLatest 1 = false ∧ l.page.inFlight = 3 := by
    decide +kernel
  have hall := errors_leave_the_rest stored ⟨"/instances", ""⟩ moves
  rw [show (mount stored ⟨"/instances", ""⟩).run moves = l from rfl] at hall
  -- All that is needed of the page has been said.
  clear_value l
  obtain ⟨hrefused, -, hanswered⟩ := hall
  refine ⟨hrefused _ _ hrefusal, ?_, ?_⟩
  · obtain ⟨inFlight, hnow, hfailed, -⟩ := hanswered 2 _ oneInstance hextension
    obtain rfl : inFlight = 2 := Nat.succ.inj (hnow.trans hinFlight)
    exact hfailed _ hfailure
  · obtain ⟨inFlight, hnow, -, -, hdropped⟩ := hanswered 0 _ oneInstance hcount
    obtain rfl : inFlight = 2 := Nat.succ.inj (hnow.trans hinFlight)
    exact hdropped 1 _ rfl holder

end LivePage

end InstanceConsole

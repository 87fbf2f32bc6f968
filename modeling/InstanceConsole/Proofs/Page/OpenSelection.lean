import InstanceConsole.Proofs.Page.Run
import InstanceConsole.Proofs.Selection.Ids

/-!
# The open selection

A selection is opened when it is created or when the user asks for it, and closed when it is
removed; no other message moves what is open, and an extension renames nothing. So the selection
that is open is always in the list, whatever ids the stored list had, and adding to it can only be
refused when none is open or nothing is picked, `open_selection_listed`.
-/

set_option autoImplicit false

namespace InstanceConsole

open SelectionList (ids)

/-- The selection that is open, if any, is in the list. -/
def Snapshot.OpenListed (s : Snapshot) : Prop :=
  ∀ id, s.openSelection = some id → id ∈ ids s.selections.selections

/-! ## Transitions -/

namespace Snapshot

variable {s t : Snapshot} {id : UInt64} {payload : SelectionPayload} {details : InstancesDetails}

theorem OpenListed.of_same (h : s.OpenListed) (hopen : t.openSelection = s.openSelection)
    (hselections : t.selections = s.selections) : t.OpenListed := by
  intro id hid
  rw [hselections]
  exact h id (hopen ▸ hid)

/-- A new selection is opened, and stands in front. -/
theorem openListed_withNewSelection (s : Snapshot) (payload : SelectionPayload)
    (details : InstancesDetails) : (s.withNewSelection payload details).OpenListed := by
  intro id hid
  obtain rfl := Option.some.inj hid
  exact List.mem_cons_self

theorem OpenListed.withMergedSelection (h : s.OpenListed)
    (ht : s.withMergedSelection id payload details = .ok t) : t.OpenListed := by
  unfold Snapshot.withMergedSelection at ht
  cases hnext : s.selections.withMerged id payload details with
  | error error =>
      rw [hnext] at ht
      cases ht
  | ok next =>
      rw [hnext] at ht
      obtain rfl := Except.ok.inj ht
      intro other hother
      show other ∈ ids next.selections
      rw [SelectionList.ids_withMerged hnext]
      exact h other hother

theorem OpenListed.withoutSelection (h : s.OpenListed) (ht : s.withoutSelection id = .ok t) :
    t.OpenListed := by
  unfold Snapshot.withoutSelection at ht
  cases hnext : s.selections.without id with
  | error error =>
      rw [hnext] at ht
      cases ht
  | ok next =>
      rw [hnext] at ht
      obtain rfl := Except.ok.inj ht
      intro other hother
      -- What is still open is another selection than the one removed.
      obtain ⟨hopen, hne⟩ := Option.filter_eq_some_iff.mp hother
      exact (SelectionList.mem_ids_without hnext (of_decide_eq_true hne)).mpr (h other hopen)

/-- What is opened was found in the list. -/
theorem openListed_withOpenToggled (ht : s.withOpenToggled id = .ok t) : t.OpenListed := by
  unfold Snapshot.withOpenToggled at ht
  cases hget : s.selections.get? id with
  | none =>
      rw [hget] at ht
      cases ht
  | some existing =>
      rw [hget] at ht
      obtain rfl := Except.ok.inj ht
      intro other hother
      have hopen : (if s.openSelection = some id then none else some id) = some other := hother
      split at hopen
      · cases hopen
      · obtain rfl := Option.some.inj hopen
        exact SelectionList.mem_ids_of_get? hget

end Snapshot

/-! ## Messages -/

namespace Page

variable {p : Page} {next : Except PageError Snapshot}

theorem openListed_commit (h : p.snapshot.OpenListed)
    (hnext : ∀ s, next = .ok s → s.OpenListed) : (p.commit next).snapshot.OpenListed := by
  cases next with
  | ok s => exact hnext s rfl
  | error error => exact h.of_same rfl rfl

theorem openListed_commitSelections (h : p.snapshot.OpenListed)
    (hnext : ∀ s, next = .ok s → s.OpenListed) :
    (p.commitSelections next).snapshot.OpenListed := by
  cases next with
  | ok s =>
      rw [snapshot_commitSelections_ok]
      exact hnext s rfl
  | error error => exact h.of_same rfl rfl

theorem openListed_addTo (h : p.snapshot.OpenListed) (id : UInt64) :
    (p.addTo id).snapshot.OpenListed := by
  rw [snapshot_addTo]
  exact h.of_same rfl rfl

theorem openListed_dispatch (h : p.snapshot.OpenListed) (e : PageEvent) :
    (p.dispatch e).snapshot.OpenListed := by
  cases e with
  | locationChanged location =>
      rw [dispatch, snapshot_onLocation]
      exact h.of_same rfl rfl
  | filterChanged patch =>
      rw [dispatch, snapshot_applyFilter]
      exact h.of_same rfl rfl
  | filterReset =>
      rw [dispatch, snapshot_applyFilter]
      exact h.of_same rfl rfl
  | addNewSelection =>
      rw [dispatch, snapshot_addNew]
      exact h.of_same rfl rfl
  | addToSelection id => exact openListed_addTo h id
  | addToOpenSelection =>
      unfold dispatch
      cases p.snapshot.openSelection with
      | none => exact h.of_same rfl rfl
      | some id => exact openListed_addTo h id
  | toggleOpenSelection id =>
      exact openListed_commit h fun _ ht => Snapshot.openListed_withOpenToggled ht
  | removeSelection id => exact openListed_commitSelections h fun _ ht => h.withoutSelection ht
  | _ => exact h.of_same rfl rfl

theorem openListed_complete (h : p.snapshot.OpenListed) (c : Completion) :
    (p.complete c).snapshot.OpenListed := by
  unfold complete
  cases c with
  | count token result =>
      simp only [applyCompletion]
      split
      · cases result with
        | ok count =>
            rw [snapshot_store]
            exact h.of_same rfl rfl
        | error e => exact h.of_same rfl rfl
      · exact h
  | newSelection payload result =>
      refine openListed_commitSelections h fun t ht => ?_
      cases result with
      | ok details =>
          obtain rfl := Except.ok.inj ht
          exact Snapshot.openListed_withNewSelection _ payload details
      | error e => cases ht
  | extension id payload result =>
      refine openListed_commitSelections h fun t ht => ?_
      cases result with
      | ok details => exact h.withMergedSelection ht
      | error e => cases ht

/-- With something picked, an extension of a selection that exists is asked for. -/
theorem addTo_of_get? {id : UInt64} {existing : Selection}
    (hget : p.snapshot.selections.get? id = some existing)
    (hpicked : p.snapshot.selection.isEmpty = false) :
    p.addTo id = p.issue
      (.extension id (.ofFragment p.snapshot.filter p.snapshot.selection (some existing))) := by
  simp only [addTo, hget, hpicked]
  rfl

end Page

/-! ## Runs -/

namespace LivePage

theorem openListed_run (stored : StoredState) (location : Location) (moves : List Move) :
    ((mount stored location).run moves).page.snapshot.OpenListed := by
  refine page_run_induction (P := fun p => p.snapshot.OpenListed) moves
    (fun _ e h => Page.openListed_dispatch h e) (fun _ c h => Page.openListed_complete h c)
    (fun _ _ h => h) ?_
  -- No selection is open at first.
  intro id hid
  rw [mount, Page.mount, Page.snapshot_readSearch] at hid
  cases hid

/-- **The open selection is in the list.** Mount a page on any stored state and let anything
happen. If a selection is open, one with its id is in the list. So an event that adds to the open
selection never meets one that does not exist: it is refused only when no selection is open, or
when nothing is picked, and otherwise the extension of that selection is asked for. -/
theorem open_selection_listed (stored : StoredState) (location : Location) (moves : List Move) :
    let l := (mount stored location).run moves
    let s := l.page.snapshot
    let next := (l.step (.event .addToOpenSelection)).page
    (s.openSelection = none ∨
      ∃ k ∈ s.selections.selections, s.openSelection = some k.selectionId) ∧
    (s.openSelection = none → next = l.page.showError .noOpenSelection) ∧
    ∀ id, s.openSelection = some id →
      (s.selection.isEmpty = true → next = l.page.showError .emptySelection) ∧
      (s.selection.isEmpty = false → ∃ existing, s.selections.get? id = some existing ∧
        next =
          l.page.issue (.extension id (.ofFragment s.filter s.selection (some existing)))) := by
  intro l s next
  have hlisted : s.OpenListed := openListed_run stored location moves
  refine ⟨?_, ?_, ?_⟩
  · cases hopen : s.openSelection with
    | none => exact .inl rfl
    | some id =>
        obtain ⟨k, hk, hid⟩ := List.mem_map.mp (hlisted id hopen)
        exact .inr ⟨k, hk, congrArg some hid.symm⟩
  · intro hopen
    show l.page.dispatch .addToOpenSelection = _
    simp only [Page.dispatch, show l.page.snapshot.openSelection = none from hopen]
  · intro id hopen
    have hnext : next = l.page.addTo id := by
      show l.page.dispatch .addToOpenSelection = _
      simp only [Page.dispatch, show l.page.snapshot.openSelection = some id from hopen]
    obtain ⟨existing, hget⟩ :=
      Option.ne_none_iff_exists'.mp (SelectionList.mem_ids_iff.mp (hlisted id hopen))
    constructor
    · intro hempty
      rw [hnext, Page.addTo, hget]
      exact if_pos hempty
    · intro hpicked
      exact ⟨existing, hget, hnext.trans (Page.addTo_of_get? hget hpicked)⟩

end LivePage

end InstanceConsole

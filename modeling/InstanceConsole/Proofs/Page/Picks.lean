import InstanceConsole.Proofs.Page.Run
import InstanceConsole.Proofs.Selection.Payload

/-!
# What is picked on a page

The selection in progress changes by three events only, and starts afresh when a fetch for it has
been answered. So the exclusions that a page has picked by itself always are exclusions from all,
and a payload then asks for just the instances that show as picked. A fragment that is delivered
from outside may exclude what it picks, and then its payload asks for less.
-/

set_option autoImplicit false

namespace InstanceConsole

/-- What is picked after an event. -/
def PageEvent.pick (fragment : SelectionFragment) : PageEvent → SelectionFragment
  | .updateSelection next => next
  | .toggleInstance id => fragment.toggle id
  | .selectAll => fragment.selectAll
  | _ => fragment

namespace Page

theorem selection_withOpenToggled {s t : Snapshot} {id : UInt64}
    (h : s.withOpenToggled id = .ok t) : t.selection = s.selection := by
  unfold Snapshot.withOpenToggled at h
  split at h
  · cases h
  · cases h
    rfl

theorem selection_withoutSelection {s t : Snapshot} {id : UInt64}
    (h : s.withoutSelection id = .ok t) : t.selection = s.selection := by
  unfold Snapshot.withoutSelection at h
  split at h
  · cases h
  · cases h
    rfl

theorem selection_dispatch (p : Page) (e : PageEvent) :
    (p.dispatch e).snapshot.selection = e.pick p.snapshot.selection := by
  cases e with
  | locationChanged location =>
      rw [dispatch, snapshot_onLocation]
      rfl
  | filterChanged patch =>
      rw [dispatch, snapshot_applyFilter]
      rfl
  | filterReset =>
      rw [dispatch, snapshot_applyFilter]
      rfl
  | addNewSelection =>
      rw [dispatch, snapshot_addNew]
      rfl
  | addToSelection id =>
      rw [dispatch, snapshot_addTo]
      rfl
  | addToOpenSelection =>
      simp only [dispatch]
      cases p.snapshot.openSelection with
      | none => rfl
      | some id =>
          simp only
          rw [snapshot_addTo]
          rfl
  | toggleOpenSelection id =>
      show (p.commit (p.snapshot.withOpenToggled id)).snapshot.selection = _
      cases hs : p.snapshot.withOpenToggled id with
      | ok s => exact selection_withOpenToggled hs
      | error error => rfl
  | removeSelection id =>
      show (p.commitSelections (p.snapshot.withoutSelection id)).snapshot.selection = _
      cases hs : p.snapshot.withoutSelection id with
      | ok s =>
          rw [snapshot_commitSelections_ok]
          exact selection_withoutSelection hs
      | error error => rfl
  | _ => rfl

/-- A completion leaves what is picked, or the selection in progress starts afresh. -/
theorem selection_complete (p : Page) (c : Completion) :
    (p.complete c).snapshot.selection = p.snapshot.selection ∨
      (p.complete c).snapshot.selection = {} := by
  cases c with
  | count token result =>
      left
      simp only [complete, applyCompletion]
      split
      · cases result with
        | ok count => rw [snapshot_store]; rfl
        | error e => rfl
      · rfl
  | newSelection payload result =>
      cases result with
      | ok details =>
          right
          simp only [complete, applyCompletion, snapshot_commitSelections_ok]
          rfl
      | error e => exact .inl rfl
  | extension id payload result =>
      cases result with
      | ok details =>
          simp only [complete, applyCompletion, Snapshot.withMergedSelection]
          cases p.snapshot.selections.withMerged id payload details with
          | ok next =>
              right
              simp only [snapshot_commitSelections_ok]
          | error e => exact .inl rfl
      | error e => exact .inl rfl

end Page

namespace LivePage

theorem selection_mount (stored : StoredState) (location : Location) :
    (mount stored location).page.snapshot.selection = {} := by
  rw [mount, Page.mount, Page.snapshot_readSearch]
  rfl

/-- An event that brings no fragment from outside excludes from all instances only. -/
theorem excludesFromAll_pick {fragment : SelectionFragment} {e : PageEvent}
    (h : fragment.ExcludesFromAll)
    (hdelivered : ∀ next, e = .updateSelection next → next.ExcludesFromAll) :
    (e.pick fragment).ExcludesFromAll := by
  cases e with
  | updateSelection next => exact hdelivered next rfl
  | toggleInstance id => exact SelectionFragment.excludesFromAll_toggle h id
  | selectAll => exact .inl rfl
  | _ => exact h

/-- As long as the fragments that are delivered exclude from all instances only, so does the
page. -/
theorem excludesFromAll_run {l : LivePage} {moves : List Move}
    (h : l.page.snapshot.selection.ExcludesFromAll)
    (hdelivered : ∀ next, .event (.updateSelection next) ∈ moves → next.ExcludesFromAll) :
    (l.run moves).page.snapshot.selection.ExcludesFromAll := by
  refine run_induction (P := fun l => l.page.snapshot.selection.ExcludesFromAll)
    (fun l m hm hl => ?_) h
  cases m with
  | event e =>
      show (l.page.dispatch e).snapshot.selection.ExcludesFromAll
      rw [Page.selection_dispatch]
      refine excludesFromAll_pick hl ?_
      rintro next rfl
      exact hdelivered next hm
  | visit location => exact hl
  | answer number reply =>
      cases hw : l.waiting? number with
      | none =>
          rw [step_answer_of_none hw]
          exact hl
      | some fetch =>
          rw [step_answer_of_some hw]
          rcases l.page.selection_complete (fetch.completion reply) with hsame | hempty
          · show (l.page.complete _).snapshot.selection.ExcludesFromAll
            rw [hsame]
            exact hl
          · show (l.page.complete _).snapshot.selection.ExcludesFromAll
            rw [hempty]
            exact .inr rfl

/-- **A payload asks for what is picked.** Take any instance that meets the filter, and any
fragment in which something is picked. The payload for a new selection asks for the instance
exactly when it is picked and is not among the exclusions, unless these are exclusions from all
instances; the payload for one that exists asks for it also when the queries there already did. On
a page to which only such fragments are delivered as exclude from all instances, it is asked for
exactly when it is picked. -/
theorem payload_asks_for_picked (stored : StoredState) (location : Location) (moves : List Move) :
    (∀ {ι : Type} (M : Meaning ι) (filter : Filter) (fragment : SelectionFragment) (i : ι),
      fragment.isEmpty = false → M.Meets filter.criteria i →
        M.AsksFor filter fragment i
          (fragment.isSelected (M.id i) = true ∧
            (fragment.all = true ∨ M.id i ∉ fragment.excludeIds))) ∧
    let picked := ((mount stored location).run moves).page.snapshot.selection
    (∀ next, .event (.updateSelection next) ∈ moves → next.ExcludesFromAll) →
      ∀ {ι : Type} (M : Meaning ι) (filter : Filter) (i : ι),
        picked.isEmpty = false → M.Meets filter.criteria i →
          M.AsksFor filter picked i (picked.isSelected (M.id i) = true) := by
  constructor
  · intro ι M filter fragment i hpicked hmeets
    exact Meaning.asksFor_of_inQuery (Meaning.inQuery_ofFragment hpicked hmeets)
  · intro picked hdelivered ι M filter i hpicked hmeets
    have hexcludes : picked.ExcludesFromAll :=
      excludesFromAll_run (.inr (by rw [selection_mount])) hdelivered
    refine Meaning.asksFor_of_inQuery ?_
    rw [Meaning.inQuery_ofFragment hpicked hmeets]
    exact and_iff_left (hexcludes.notMem _)

/-- A page takes a fragment that excludes what it picks, shows the instance as picked, and asks for
a selection without it. -/
theorem payload_without_picked :
    ∃ (fragment : SelectionFragment) (M : Meaning String),
      ((mount {} ⟨"/instances", ""⟩).run
        [.event (.updateSelection fragment)]).page.snapshot.selection = fragment ∧
      fragment.isEmpty = false ∧ M.Meets Filter.default.criteria "a" ∧
      fragment.isSelected (M.id "a") = true ∧
      ¬ M.InUnion (SelectionPayload.ofFragment .default fragment none).queries "a" := by
  refine ⟨{ ids := .ofList ["a"], excludeIds := .ofList ["a"] }, ⟨id, fun _ _ => True⟩, rfl, rfl,
    ⟨.inl rfl, trivial⟩, rfl, ?_⟩
  rintro ⟨q, hq, -, hexcluded⟩
  obtain rfl := List.mem_singleton.mp hq
  exact hexcluded (List.mem_singleton.mpr rfl)

end LivePage

end InstanceConsole

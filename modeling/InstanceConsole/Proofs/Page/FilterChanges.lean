import InstanceConsole.Proofs.Page.FilterSync
import InstanceConsole.Proofs.Page.Session

/-!
# Changes of the filter

What a change of the filter comes to. The page does not take the changed filter as it is: it goes
to the location of that filter, and takes whatever this location carries, or the default filter
when it carries none. The outcome is the merged filter with its ids cut, and it is the same in the
page, in its location and in the store.
-/

set_option autoImplicit false

namespace InstanceConsole

namespace Filter

theorem canonical_merge (f : Filter) (patch : FilterPatch) :
    (f.merge patch).canonical = (f.merge patch).withSplitIds := by
  rw [canonical, merge, normalized_normalized]

theorem isEmpty_iff {f : Filter} : f.isEmpty = true ↔ f = {} := by
  rw [isEmpty, decide_eq_true_iff]

/-- The location of a filter gives the canonical filter, or the default one when nothing of it is
left. -/
theorem atQuery_toQuery (f : Filter) :
    atQuery f.toQuery = if f.canonical.isEmpty then default else f.canonical := by
  rw [atQuery, ofQuery_toQuery]
  by_cases hempty : f.canonical.isEmpty = true
  · rw [if_pos hempty, if_pos hempty]
    rfl
  · rw [if_neg hempty, if_neg hempty]
    rfl

theorem atQuery_toQuery_default : atQuery default.toQuery = default := by
  rw [atQuery, ofQuery_toQuery_default]
  rfl

end Filter

namespace Page

variable {p : Page}

/-- The page ends with what the location of the filter carries. -/
theorem filter_applyFilter (h : p.InSync) (f : Filter) :
    (p.applyFilter f).snapshot.filter = .atQuery f.toQuery := by
  rw [applyFilter_eq]
  dsimp only
  rw [snapshot_store]
  exact filter_onLocation (inSync_pushFilter h f) f.toQuery

/-- The location where the page ends carries the filter that it shows. -/
theorem ofQuery_applyFilter (h : p.InSync) (f : Filter) :
    Filter.ofQuery (p.applyFilter f).history.current.search =
      .ok (p.applyFilter f).snapshot.filter := by
  obtain ⟨search, hcurrent, hread⟩ := inSync_applyFilter h f
  have hshows : (p.applyFilter f).currentSearch = some _ := showsSearch_applyFilter p f
  obtain rfl := Option.some.inj (hcurrent.symm.trans hshows)
  exact hread

/-- The page may fall back to the default filter before it goes anywhere, when nothing is set, or
afterwards, when nothing comes back. Both come to the same. -/
theorem atQuery_changedFilter (p : Page) (patch : FilterPatch) :
    Filter.atQuery (p.changedFilter patch).toQuery =
      if (p.snapshot.filter.merge patch).canonical.isEmpty then .default
      else (p.snapshot.filter.merge patch).canonical := by
  unfold changedFilter
  by_cases hempty : (p.snapshot.filter.merge patch).isEmpty = true
  · have hcanonical : (p.snapshot.filter.merge patch).canonical.isEmpty = true := by
      rw [Filter.isEmpty_iff.mp hempty]
      rfl
    rw [if_pos hempty, if_pos hcanonical, Filter.atQuery_toQuery_default]
  · rw [if_neg hempty, Filter.atQuery_toQuery]

end Page

namespace LivePage

/-- With an event a page takes up a filter: it shows it, its location carries it, and the store
holds it, at once and for as long as no other event sets the filter. In particular the store
holds it after a session has settled in which no such event waits. -/
structure Adopts (l : LivePage) (e : PageEvent) (f : Filter) : Prop where
  shown : (l.step (.event e)).page.snapshot.filter = f
  located : Filter.ofQuery (l.step (.event e)).page.history.current.search = .ok f
  stored : ∀ (initial : StoredState) (after : List Move),
    (∀ next, .event next ∈ after → next.setsFilter = false) →
      (((l.step (.event e)).run after).store initial fun _ => true).filter = some f
  settled : ∀ {σ : Type} (backend : Backend σ) (state : σ) (initial : StoredState) {s : Session}
    {pending : List Move}, s.Follows l pending → s.attached = true →
      (∀ next, .event next ∈ s.queue → next.setsFilter = false) →
        (((s.dispatch e).settle backend state).1.storedState initial).filter = some f

variable {l : LivePage} {e : PageEvent} {f : Filter}

/-- An event that sets the filter has it stored. -/
theorem filter_store_of_setsFilter (he : e.setsFilter = true)
    (hshown : (l.step (.event e)).page.snapshot.filter = f) (initial : StoredState)
    {after : List Move} (hafter : ∀ next, .event next ∈ after → next.setsFilter = false) :
    (((l.step (.event e)).run after).store initial fun _ => true).filter = some f := by
  have hsplit : .event e :: after = [] ++ Move.event e :: after := rfl
  rw [← hshown]
  exact filter_run_of_setsFilter (fun _ _ => rfl) hsplit he hafter

theorem adopts_of_applyFilter (h : l.page.InSync) (he : e.setsFilter = true) {changed : Filter}
    (hevent : l.page.dispatch e = l.page.applyFilter changed)
    (hf : Filter.atQuery changed.toQuery = f) : l.Adopts e f := by
  have hshown : (l.step (.event e)).page.snapshot.filter = f := by
    show (l.page.dispatch e).snapshot.filter = f
    rw [hevent, Page.filter_applyFilter h, hf]
  refine ⟨hshown, ?_, ?_, ?_⟩
  · have hlocated := Page.ofQuery_applyFilter h changed
    rw [← hevent] at hlocated
    rw [← hshown]
    exact hlocated
  · intro initial after hafter
    exact filter_store_of_setsFilter he hshown initial hafter
  · intro σ backend state initial s pending hfollows hattached hqueue
    obtain ⟨-, answers, hanswers, hsettled, -⟩ :=
      (hfollows.dispatch e).settle hattached backend state
    -- What comes up while the session settles are the events that wait, and answers.
    have hafter : ∀ next, .event next ∈ pending ++ answers → next.setsFilter = false := by
      intro next hnext
      rcases List.mem_append.mp hnext with hpending | hanswer
      · exact hqueue next (hfollows.mem_queue hpending)
      · cases hanswers _ hanswer
    rw [Session.storedState_eq _ hsettled.page]
    exact filter_store_of_setsFilter he hshown initial hafter

/-- **A change of the filter.** In every state of a page, a patch gives the merged filter with
every id cut at commas and blanks, or the default filter when nothing of that is set; and a reset
gives the default filter. That filter is what the page shows, what its location carries and what
the store holds. -/
theorem filter_changes_adopted (stored : StoredState) (location : Location) (moves : List Move)
    (patch : FilterPatch) :
    let l := (mount stored location).run moves
    let merged := (l.page.snapshot.filter.merge patch).withSplitIds
    l.Adopts (.filterChanged patch) (if merged.isEmpty then .default else merged) ∧
      l.Adopts .filterReset .default := by
  intro l merged
  have hsync : l.page.InSync := inSync_run stored location moves
  constructor
  · have hchanged := l.page.atQuery_changedFilter patch
    rw [Filter.canonical_merge] at hchanged
    exact adopts_of_applyFilter hsync rfl rfl hchanged
  · exact adopts_of_applyFilter hsync rfl rfl Filter.atQuery_toQuery_default

end LivePage

end InstanceConsole

import InstanceConsole.Proofs.Filter.PatchesInTurn
import InstanceConsole.Proofs.Page.Reopening

/-!
# A change of the filter that is repeated

The second of two equal changes does not start where the first one did, but from the filter that
the page took up: with its ids cut, or the default one when nothing was left. It comes to the same
filter all the same, `PageEvent.filterAfter_twice`. What the page shows and what is stored for the
filter then stay the same whatever comes later, since only events decide on them, `copies_run`.
-/

set_option autoImplicit false

namespace InstanceConsole

/-! ## Merging into canonical filters -/

namespace Filter

/-- The ids of a list cut at commas and blanks, or no list without any of them. -/
def splitIdList (ids : Option (List String)) : Option (List String) :=
  (ids.map fun ids => ids.flatMap WireFilter.splitIds).filter (· ≠ [])

theorem splitIdList_filter (ids : Option (List String)) :
    splitIdList (ids.filter (· ≠ [])) = splitIdList ids := by
  cases ids with
  | none => rfl
  | some ids => cases ids <;> rfl

theorem splitIdList_splitIdList (ids : Option (List String)) :
    splitIdList (splitIdList ids) = splitIdList ids := by
  have h : splitIdList ((splitIdList (ids.filter (· ≠ []))).filter (· ≠ [])) =
      splitIdList (ids.filter (· ≠ [])) := congrArg Filter.ids (canonical_canonical { ids })
  rw [splitIdList_filter, splitIdList_filter] at h
  exact h

theorem withSplitIds_eq (f : Filter) : f.withSplitIds = { f with ids := splitIdList f.ids } := rfl

/-- Ids that are cut in the end need not be cut before. -/
theorem canonical_merge_canonical (f : Filter) (p : FilterPatch) :
    (f.canonical.merge p).canonical = (f.merge p).canonical := by
  have hids : ∀ (d : Change (List String)) (ids : Option (List String)),
      splitIdList (d.apply (splitIdList ids)) = splitIdList (d.apply ids) :=
    Change.normal_apply_normal splitIdList splitIdList_splitIdList
  simp only [canonical, withSplitIds_eq, merge, normalized, splitIdList_filter, hids,
    bind_unlessBlank_apply, filter_apply]

/-- What a patch has left of some filter, it leaves of that result too. -/
theorem canonical_merge_self (f : Filter) (p : FilterPatch) :
    ((f.merge p).canonical.merge p).canonical = (f.merge p).canonical := by
  rw [canonical_merge_canonical, merge_merge, FilterPatch.followedBy_self]

/-- A patch that leaves nothing of the empty filter sets nothing in the default one either. -/
theorem canonical_default_merge {p : FilterPatch} (h : (merge {} p).canonical = {}) :
    (default.merge p).canonical = default := by
  have hactive : (p.active <|> none) = none := congrArg Filter.active h
  have hincidents : (p.incidents <|> none) = none := congrArg Filter.incidents h
  rw [Option.orElse_eq_orElse, Option.orElse_eq_or, Option.or_none] at hactive hincidents
  -- The default filter sets two flags, and is as empty as the other in all other fields.
  have hfields : (default.merge p).canonical =
      { (merge {} p).canonical with
        active := p.active <|> some true
        incidents := p.incidents <|> some true } := rfl
  rw [hfields, h, hactive, hincidents]
  rfl

end Filter

/-! ## What events make of the filter -/

namespace PageEvent

theorem filterAfter_filterChanged (patch : FilterPatch) (f : Filter) :
    (filterChanged patch).filterAfter f =
      if (f.merge patch).canonical.isEmpty then .default else (f.merge patch).canonical := by
  rw [Filter.canonical_merge]
  rfl

/-- The same change again makes no difference, though it starts from another filter. -/
theorem filterAfter_twice (patch : FilterPatch) (f : Filter) :
    (filterChanged patch).filterAfter ((filterChanged patch).filterAfter f) =
      (filterChanged patch).filterAfter f := by
  have hself := Filter.canonical_merge_self f patch
  rw [filterAfter_filterChanged patch f]
  by_cases hempty : (f.merge patch).canonical.isEmpty = true
  · -- Nothing was left, so the patch sets nothing, and the default filter stays.
    rw [Filter.isEmpty_iff.mp hempty] at hself
    rw [if_pos hempty, filterAfter_filterChanged, Filter.canonical_default_merge hself]
    rfl
  · rw [if_neg hempty, filterAfter_filterChanged, hself, if_neg hempty]

end PageEvent

/-- The filter that a page shows, and the one that is stored. -/
structure FilterCopies where
  shown : Filter
  stored : Option Filter

namespace FilterCopies

/-- The copies after an event. -/
def after (copies : FilterCopies) (e : PageEvent) : FilterCopies where
  shown := e.filterAfter copies.shown
  stored := if e.setsFilter then some (e.filterAfter copies.shown) else copies.stored

theorem after_of_setsFilter {e : PageEvent} (h : e.setsFilter = true) (copies : FilterCopies) :
    copies.after e = ⟨e.filterAfter copies.shown, some (e.filterAfter copies.shown)⟩ := by
  rw [after, if_pos h]

theorem after_of_not_setsFilter {e : PageEvent} (h : e.setsFilter = false) (copies : FilterCopies) :
    copies.after e = ⟨e.filterAfter copies.shown, copies.stored⟩ := by
  rw [after, if_neg (by simp [h])]

theorem after_twice (copies : FilterCopies) (patch : FilterPatch) :
    (copies.after (.filterChanged patch)).after (.filterChanged patch) =
      copies.after (.filterChanged patch) := by
  have hsets : (PageEvent.filterChanged patch).setsFilter = true := rfl
  rw [after_of_setsFilter hsets, after_of_setsFilter hsets, PageEvent.filterAfter_twice]

/-- What is stored stays when no event sets the filter. -/
theorem stored_foldl_after {events : List PageEvent} (h : ∀ e ∈ events, e.setsFilter = false)
    (copies : FilterCopies) : (events.foldl after copies).stored = copies.stored := by
  induction events generalizing copies with
  | nil => rfl
  | cons e events ih =>
      rw [List.foldl_cons, ih fun next hnext => h next (by simp [hnext]),
        after_of_not_setsFilter (h e (by simp))]

end FilterCopies

namespace LivePage

variable {l : LivePage}

/-- The filter that the page shows, and the one that is stored when no write fails. -/
def copies (l : LivePage) (stored : StoredState) : FilterCopies :=
  ⟨l.page.snapshot.filter, (l.store stored fun _ => true).filter⟩

theorem copies_event (h : l.page.InSync) (stored : StoredState) (e : PageEvent) :
    (l.step (.event e)).copies stored = (l.copies stored).after e := by
  have hshown : (l.step (.event e)).page.snapshot.filter =
      e.filterAfter l.page.snapshot.filter := Page.filter_dispatch h e
  cases hsets : e.setsFilter with
  | true =>
      have hstored : (((l.step (.event e)).run []).store stored fun _ => true).filter =
          some (e.filterAfter l.page.snapshot.filter) :=
        filter_store_of_setsFilter hsets hshown stored (by simp)
      rw [FilterCopies.after_of_setsFilter hsets, copies, hshown]
      exact congrArg (FilterCopies.mk _) hstored
  | false =>
      have hstored : ((l.run [.event e]).store stored fun _ => true).filter =
          (l.store stored fun _ => true).filter :=
        filter_run_of_not_setsFilter (by simpa using hsets)
      rw [FilterCopies.after_of_not_setsFilter hsets, copies, hshown]
      exact congrArg (FilterCopies.mk _) hstored

theorem copies_step (h : l.page.InSync) (stored : StoredState) (m : Move) :
    (l.step m).copies stored = m.event?.toList.foldl FilterCopies.after (l.copies stored) := by
  have hkept (hm : ∀ e, .event e ∈ [m] → e.setsFilter = false) :
      ((l.run [m]).store stored fun _ => true).filter = (l.store stored fun _ => true).filter :=
    filter_run_of_not_setsFilter hm
  cases m with
  | event e => exact copies_event h stored e
  | answer number reply =>
      rw [copies, (l.sameFilter_answer number reply).filter]
      exact congrArg (FilterCopies.mk _) (hkept (by simp))
  | visit location => exact congrArg (FilterCopies.mk _) (hkept (by simp))

/-- **What is shown and stored of the filter** comes of the events alone. -/
theorem copies_run (h : l.page.InSync) (stored : StoredState) (moves : List Move) :
    (l.run moves).copies stored =
      (moves.filterMap Move.event?).foldl FilterCopies.after (l.copies stored) :=
  run_eq_foldl_events (fun l => l.copies stored) (fun _ hnext m => copies_step hnext stored m)
    h moves

end LivePage

namespace Session

variable {s t : Session} {l : LivePage} {pending : List Move} {σ : Type}

/-- The filter that the page shows, and the one that is stored. -/
def copies (s : Session) (stored : StoredState) : FilterCopies :=
  ⟨s.page.snapshot.filter, (s.storedState stored).filter⟩

theorem copies_inj {stored : StoredState} :
    s.copies stored = t.copies stored ↔
      s.page.snapshot.filter = t.page.snapshot.filter ∧
        (s.storedState stored).filter = (t.storedState stored).filter := by
  simp only [copies, FilterCopies.mk.injEq]

/-- Settling takes up the events that wait. The answers that come have no part in the filter. -/
theorem Follows.copies_settle (h : s.Follows l pending) (hattached : s.attached = true)
    (hsync : l.page.InSync) (backend : Backend σ) (state : σ) (stored : StoredState) :
    (s.settle backend state).1.copies stored =
      (pending.filterMap Move.event?).foldl FilterCopies.after (l.copies stored) := by
  obtain ⟨-, answers, hanswers, hsettled, -⟩ := h.settle hattached backend state
  have hnone : answers.filterMap Move.event? = [] := by
    refine List.filterMap_eq_nil_iff.mpr fun m hm => ?_
    obtain ⟨number, reply⟩ := hanswers m hm
    rfl
  rw [copies, storedState_eq _ hsettled.page, hsettled.page]
  refine (LivePage.copies_run hsync stored (pending ++ answers)).trans ?_
  rw [List.filterMap_append, hnone, List.append_nil]

/-- What is stored stays, unless an event that waits sets the filter. -/
theorem Follows.stored_settle (h : s.Follows l pending) (hattached : s.attached = true)
    (hsync : l.page.InSync) (backend : Backend σ) (state : σ) (stored : StoredState)
    (hqueue : ∀ next, .event next ∈ s.queue → next.setsFilter = false) :
    ((s.settle backend state).1.storedState stored).filter = (l.copies stored).stored := by
  refine (congrArg FilterCopies.stored
    (h.copies_settle hattached hsync backend state stored)).trans ?_
  refine FilterCopies.stored_foldl_after (fun next hnext => ?_) _
  obtain ⟨m, hm, hevent⟩ := List.mem_filterMap.mp hnext
  cases m with
  | event waiting =>
      obtain rfl := Option.some.inj hevent
      exact hqueue waiting (h.mem_queue hm)
  | answer number reply => cases hevent
  | visit location => cases hevent

end Session

namespace LivePage

/-- **A change of the filter that is repeated** at once adds nothing. In every state of a page,
after the second of two equal changes the page shows the filter that it showed after the first, and
its location carries that filter. When the session settles, with all writes made, it has come to
the same filter as without the second change and has stored the same one, whatever waited in it.
Unless an event that waits sets the filter, the stored one is the one that the page showed. -/
theorem repeated_change_adds_nothing (stored : StoredState) (location : Location)
    (moves : List Move) (patch : FilterPatch) :
    let e := PageEvent.filterChanged patch
    let l := (mount stored location).run moves
    let once := l.step (.event e)
    let twice := once.step (.event e)
    let f := once.page.snapshot.filter
    twice.page.snapshot.filter = f ∧
    Filter.ofQuery once.page.history.current.search = .ok f ∧
    Filter.ofQuery twice.page.history.current.search = .ok f ∧
    ∀ {σ : Type} (backend : Backend σ) (state : σ) (initial : StoredState) {s : Session}
      {pending : List Move}, s.Follows l pending → s.attached = true →
        let settledOnce := ((s.dispatch e).settle backend state).1
        let settledTwice := (((s.dispatch e).dispatch e).settle backend state).1
        settledTwice.page.snapshot.filter = settledOnce.page.snapshot.filter ∧
        (settledTwice.storedState initial).filter = (settledOnce.storedState initial).filter ∧
        ((∀ next, .event next ∈ s.queue → next.setsFilter = false) →
          (settledTwice.storedState initial).filter = some f) := by
  intro e l once twice f
  have hsync : l.page.InSync := inSync_run stored location moves
  have honce : once.page.InSync := inSync_of_run hsync [.event e]
  have htwice : twice.page.InSync := inSync_of_run honce [.event e]
  have hfilter : f = e.filterAfter l.page.snapshot.filter := Page.filter_dispatch hsync e
  have hshown : twice.page.snapshot.filter = f := by
    rw [show twice.page.snapshot.filter = e.filterAfter f from Page.filter_dispatch honce e,
      hfilter, PageEvent.filterAfter_twice]
  have hadopted (initial : StoredState) : once.copies initial = (l.copies initial).after e :=
    copies_event hsync initial e
  have hrepeated (initial : StoredState) : twice.copies initial = once.copies initial := by
    rw [copies_event honce, hadopted, FilterCopies.after_twice]
  refine ⟨hshown, Page.ofQuery_applyFilter hsync (l.page.changedFilter patch), ?_, ?_⟩
  · rw [← hshown]
    exact Page.ofQuery_applyFilter honce (once.page.changedFilter patch)
  · intro σ backend state initial s pending hfollows hattached settledOnce settledTwice
    have hdispatched := hfollows.dispatch e
    have hagain := hdispatched.dispatch e
    -- Both sessions take up the events that wait, from the same copies of the filter.
    have hsame : settledTwice.copies initial = settledOnce.copies initial := by
      rw [hagain.copies_settle hattached htwice, hrepeated,
        hdispatched.copies_settle hattached honce]
    obtain ⟨hpage, hstored⟩ := Session.copies_inj.mp hsame
    refine ⟨hpage, hstored, fun hqueue => ?_⟩
    rw [hagain.stored_settle hattached htwice backend state initial hqueue, hrepeated, hadopted,
      FilterCopies.after_of_setsFilter rfl, hfilter]
    rfl

end LivePage

end InstanceConsole

import InstanceConsole.Proofs.Page.FilterChanges

/-!
# Pages that are opened again

The filter of a page is what its events make of the one that it was mounted with (`filter_run`).
Nobody tells a page of its filter when it is opened again: it finds a stored filter, goes to the
location of that, and reads the query string there. As long as nothing but the page itself moves
its location, this gives the filter that the page had in the end (`reopens_run`).
-/

set_option autoImplicit false

namespace InstanceConsole

/-! ## The filter after an event -/

/-- The filter after an event. -/
def PageEvent.filterAfter (f : Filter) : PageEvent → Filter
  | .locationChanged location => .atQuery location.search
  | .filterChanged patch =>
      let merged := (f.merge patch).withSplitIds
      if merged.isEmpty then .default else merged
  | .filterReset => .default
  | _ => f

/-- Events that do not concern the filter leave it as it is. -/
theorem PageEvent.foldl_filterAfter_eq_self {f : Filter} {events : List PageEvent}
    (h : ∀ e ∈ events, e.filterAfter f = f) : events.foldl filterAfter f = f := by
  induction events with
  | nil => rfl
  | cons e events ih =>
      rw [List.foldl_cons, h e (by simp)]
      exact ih fun other hother => h other (by simp [hother])

namespace Page

variable {p : Page} {e : PageEvent}

theorem sameFilter_addTo (p : Page) (id : UInt64) : SameFilter p (p.addTo id) := by
  unfold addTo
  split
  · exact ⟨rfl, rfl, rfl⟩
  · split
    · exact ⟨rfl, rfl, rfl⟩
    · exact ⟨rfl, rfl, rfl⟩

/-- Only a location, or an event that sets the filter, changes what a query string decides. -/
theorem sameFilter_dispatch (hsets : e.setsFilter = false)
    (hstays : ∀ location, e ≠ .locationChanged location) : SameFilter p (p.dispatch e) := by
  cases e with
  | locationChanged location => exact absurd rfl (hstays location)
  | filterChanged patch => cases hsets
  | filterReset => cases hsets
  | addNewSelection =>
      show SameFilter p p.addNew
      unfold addNew
      split
      · exact ⟨rfl, rfl, rfl⟩
      · exact ⟨rfl, rfl, rfl⟩
  | addToSelection id => exact sameFilter_addTo p id
  | addToOpenSelection =>
      simp only [dispatch]
      cases p.snapshot.openSelection with
      | none => exact ⟨rfl, rfl, rfl⟩
      | some id => exact sameFilter_addTo p id
  | toggleOpenSelection id =>
      simp only [dispatch, Snapshot.withOpenToggled]
      cases p.snapshot.selections.get? id with
      | none => exact ⟨rfl, rfl, rfl⟩
      | some existing => exact ⟨rfl, rfl, rfl⟩
  | removeSelection id =>
      show SameFilter p (p.commitSelections (p.snapshot.withoutSelection id))
      cases hs : p.snapshot.withoutSelection id with
      | ok s => exact sameFilter_commitSelections_ok (filter_withoutSelection hs)
      | error error => exact ⟨rfl, rfl, rfl⟩
  | _ => exact ⟨rfl, rfl, rfl⟩

theorem exists_applyFilter (p : Page) (hsets : e.setsFilter = true) :
    ∃ f, p.dispatch e = p.applyFilter f := by
  cases e with
  | filterChanged patch => exact ⟨p.changedFilter patch, rfl⟩
  | filterReset => exact ⟨.default, rfl⟩
  | _ => cases hsets

theorem filter_dispatch (h : p.InSync) (e : PageEvent) :
    (p.dispatch e).snapshot.filter = e.filterAfter p.snapshot.filter := by
  cases e with
  | locationChanged location => exact filter_onLocation h location.search
  | filterChanged patch =>
      have hchanged := p.atQuery_changedFilter patch
      rw [Filter.canonical_merge] at hchanged
      exact (filter_applyFilter h _).trans hchanged
  | filterReset => exact (filter_applyFilter h _).trans Filter.atQuery_toQuery_default
  | _ => exact (sameFilter_dispatch rfl (by simp)).filter

end Page

/-- The event of a move. -/
def Move.event? : Move → Option PageEvent
  | .event e => some e
  | _ => none

namespace LivePage

variable {l : LivePage} {m : Move}

theorem sameFilter_answer (l : LivePage) (number : Nat) (reply : Reply) :
    Page.SameFilter l.page (l.step (.answer number reply)).page := by
  cases hw : l.waiting? number with
  | none =>
      rw [step_answer_of_none hw]
      exact ⟨rfl, rfl, rfl⟩
  | some fetch =>
      rw [step_answer_of_some hw]
      exact Page.sameFilter_complete _ _

theorem filter_step (h : l.page.InSync) (m : Move) :
    (l.step m).page.snapshot.filter =
      m.event?.toList.foldl PageEvent.filterAfter l.page.snapshot.filter := by
  cases m with
  | event e => exact Page.filter_dispatch h e
  | answer number reply => exact (l.sameFilter_answer number reply).filter
  | visit location => rfl

/-- What every move makes of a view by its event alone, a run makes of it by its events. -/
theorem run_eq_foldl_events {β : Type} (view : LivePage → β) {after : β → PageEvent → β}
    (hstep : ∀ l : LivePage, l.page.InSync → ∀ m : Move,
      view (l.step m) = m.event?.toList.foldl after (view l))
    (h : l.page.InSync) (moves : List Move) :
    view (l.run moves) = (moves.filterMap Move.event?).foldl after (view l) := by
  induction moves generalizing l with
  | nil => rfl
  | cons m moves ih =>
      have hnext : (l.step m).page.InSync := inSync_of_run h [m]
      rw [run_cons, ih hnext, hstep l h, ← List.foldl_append]
      cases m with
      | event e => rfl
      | answer number reply => rfl
      | visit location => rfl

/-- **The filter of a page is what its events make of the first one**, one after the other. Neither
answers nor locations that it is not told of have a part in it. -/
theorem filter_run (h : l.page.InSync) (moves : List Move) :
    (l.run moves).page.snapshot.filter =
      (moves.filterMap Move.event?).foldl PageEvent.filterAfter l.page.snapshot.filter :=
  run_eq_foldl_events (fun l => l.page.snapshot.filter) (fun _ => filter_step) h moves

end LivePage

/-! ## Opening the page again -/

/-- The query string of the stored filter, or nothing. -/
def StoredState.search (s : StoredState) : String := (s.filter.map Filter.toQuery).getD ""

theorem Filter.atQuery_empty : atQuery "" = default := rfl

/-- What a query string gives is canonical, and has a field set. -/
theorem Filter.canonical_atQuery (search : String) :
    (atQuery search).canonical = atQuery search ∧ (atQuery search).isEmpty = false := by
  unfold atQuery
  cases hread : ofQuery search with
  | ok f => exact canonical_of_ofQuery hread
  | error e => exact ⟨rfl, rfl⟩

/-- A filter that a page shows is the one at the location of that filter. -/
theorem Page.InSync.atQuery_toQuery {p : Page} (h : p.InSync) :
    Filter.atQuery p.snapshot.filter.toQuery = p.snapshot.filter := by
  obtain ⟨search, -, hread⟩ := h
  obtain ⟨hcanonical, hfield⟩ := Filter.canonical_of_ofQuery hread
  rw [Filter.atQuery_toQuery, hcanonical, hfield]
  rfl

/-- A move that leaves the location of the page to the page. -/
def Move.KeepsLocation : Move → Prop
  | .event (.locationChanged _) => False
  | .visit _ => False
  | _ => True

namespace LivePage

/-- A page shows the filter of its location, and the stored state is opened with that filter. -/
structure Reopens (stored : StoredState) (l : LivePage) : Prop where
  inSync : l.page.InSync
  shows : l.page.ShowsSearch
  search : Filter.atQuery (l.store stored fun _ => true).search = l.page.snapshot.filter

variable {stored : StoredState} {l : LivePage} {m : Move}

theorem reopens_mount (stored : StoredState) (pathname : String) :
    (mount stored ⟨pathname, stored.search⟩).Reopens stored where
  inSync := Page.inSync_mount _ _
  shows := Page.showsSearch_readSearch (.inl rfl)
  search := by
    rw [store_mount]
    exact (Page.filter_readSearch _ stored.search).symm

/-- Nothing happens to the stored filter, unless a move sets it. -/
theorem filter_store_step (h : l.commits? m ≠ some .filter) :
    ((l.step m).store stored fun _ => true).filter = (l.store stored fun _ => true).filter := by
  have hheld : StatePart.filter.held ((l.step m).store stored fun _ => true) =
      StatePart.filter.held (l.store stored fun _ => true) :=
    held_step_of_not_writesAt stored fun hwrites => h hwrites.1
  exact congrArg StatePatch.filter hheld

/-- A move that changes nothing about the filter changes nothing about opening the page again. -/
theorem Reopens.of_same (h : l.Reopens stored)
    (hsame : Page.SameFilter l.page (l.step m).page) (hcommits : l.commits? m ≠ some .filter) :
    (l.step m).Reopens stored where
  inSync := h.inSync.of_same hsame
  shows := h.shows.of_same hsame
  search := by
    rw [StoredState.search, filter_store_step hcommits, hsame.filter]
    exact h.search

theorem Reopens.step (h : l.Reopens stored) (hm : m.KeepsLocation) :
    (l.step m).Reopens stored := by
  cases m with
  | visit location => exact hm.elim
  | answer number reply =>
      refine h.of_same (l.sameFilter_answer number reply) fun hcommits => ?_
      obtain ⟨e, he, -⟩ := commits?_filter hcommits
      cases he
  | event e =>
      cases hsets : e.setsFilter with
      | false =>
          refine h.of_same (Page.sameFilter_dispatch hsets ?_) fun hcommits => ?_
          · rintro location rfl
            exact hm
          · rw [commits?_event_filter_iff, hsets] at hcommits
            cases hcommits
      | true =>
          -- The filter that the page comes to is stored, and its location is visited.
          obtain ⟨f, hf⟩ := l.page.exists_applyFilter hsets
          have hsync : (l.step (.event e)).page.InSync := Page.inSync_dispatch h.inSync e
          have hwrites : l.WritesAt (fun _ => true) .filter [] (.event e) :=
            ⟨(l.commits?_event_filter_iff e).mpr hsets, rfl⟩
          have hstored : ((l.step (.event e)).store stored fun _ => true).filter =
              some (l.step (.event e)).page.snapshot.filter :=
            congrArg StatePatch.filter (held_step_of_writesAt stored hwrites)
          refine ⟨hsync, ?_, ?_⟩
          · show (l.page.dispatch e).ShowsSearch
            rw [hf]
            exact Page.showsSearch_applyFilter l.page f
          · rw [StoredState.search, hstored]
            exact hsync.atQuery_toQuery

/-- **A page is opened again with the filter that it had**, when it was opened at the location of
the stored filter and nothing else than itself has moved it since. -/
theorem reopens_run (h : l.Reopens stored) {moves : List Move}
    (hmoves : ∀ m ∈ moves, m.KeepsLocation) : (l.run moves).Reopens stored :=
  run_induction (P := Reopens stored) (fun _ m hm hnext => hnext.step (hmoves m hm)) h

end LivePage

end InstanceConsole

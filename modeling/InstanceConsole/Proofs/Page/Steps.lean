import InstanceConsole.Page.Basic
import InstanceConsole.Proofs.Selection.List

/-!
# What one message does to a page

An event comes to one of five outcomes, `outcome_dispatch`, and a completion to one of three,
`outcome_complete`. What a message does to the selections is one edit at most, and a fetch that was
issued stays among the fetches.
-/

set_option autoImplicit false

namespace InstanceConsole

open SelectionList (Edit)

/-- The edit of the selections that an event stands for. -/
def PageEvent.edit? : PageEvent → Option Edit
  | .removeSelection id => some (.remove id)
  | _ => none

/-- The edit of the selections that a completion stands for. -/
def Completion.edit? : Completion → Option Edit
  | .newSelection payload (.ok details) => some (.new payload details)
  | .extension id payload (.ok details) => some (.merge id payload details)
  | _ => none

/-- A snapshot shows the same data as another, whatever is picked, open or reported. -/
structure Snapshot.SameData (s t : Snapshot) : Prop where
  filter : t.filter = s.filter
  filterCount : t.filterCount = s.filterCount
  selections : t.selections = s.selections

namespace Page

/-! ## Storing -/

theorem store_eq (p : Page) (patch : StatePatch) :
    p.store patch = { p with writes := (p.store patch).writes } := by
  unfold store
  split
  · rfl
  · rfl

theorem snapshot_store (p : Page) (patch : StatePatch) : (p.store patch).snapshot = p.snapshot := by
  rw [store_eq]

theorem fetches_store (p : Page) (patch : StatePatch) : (p.store patch).fetches = p.fetches := by
  rw [store_eq]

theorem snapshot_commitSelections_ok (p : Page) (s : Snapshot) :
    (p.commitSelections (.ok s)).snapshot = s := by
  unfold commitSelections
  rw [snapshot_store]

theorem fetches_commitSelections_ok (p : Page) (s : Snapshot) :
    (p.commitSelections (.ok s)).fetches = p.fetches := by
  unfold commitSelections
  rw [fetches_store]

/-! ## Snapshots

A query string that is read changes nothing in the snapshot but the filter. A question about
selections changes nothing in it, but may be refused in the error message. -/

theorem snapshot_readSearch (p : Page) (search : String) :
    (p.readSearch search).snapshot =
      p.snapshot.withFilter (p.readSearch search).snapshot.filter := by
  unfold readSearch
  cases Filter.ofQuery search with
  | ok filter => rfl
  | error e => rfl

theorem snapshot_onLocation (p : Page) (search : String) :
    (p.onLocation search).snapshot =
      p.snapshot.withFilter (p.onLocation search).snapshot.filter := by
  unfold onLocation
  split
  · rfl
  · exact snapshot_readSearch p search

theorem snapshot_pushFilter (p : Page) (filter : Filter) :
    (p.pushFilter filter).snapshot = p.snapshot := by
  simp only [pushFilter]

theorem snapshot_applyFilter (p : Page) (filter : Filter) :
    (p.applyFilter filter).snapshot =
      p.snapshot.withFilter (p.applyFilter filter).snapshot.filter := by
  -- First the location of the filter is visited, then its query string is read.
  have hmoved := snapshot_onLocation (p.pushFilter filter) filter.toQuery
  rw [snapshot_pushFilter] at hmoved
  simp only [applyFilter, snapshot_store]
  exact hmoved

theorem snapshot_addNew (p : Page) :
    p.addNew.snapshot = { p.snapshot with errorMessage := p.addNew.snapshot.errorMessage } := by
  unfold addNew
  split
  · rfl
  · rfl

theorem snapshot_addTo (p : Page) (id : UInt64) :
    (p.addTo id).snapshot =
      { p.snapshot with errorMessage := (p.addTo id).snapshot.errorMessage } := by
  unfold addTo
  split
  · rfl
  · split
    · rfl
    · rfl

/-! ## Outcomes of an event -/

/-- What an event may ask of the backend about selections: the instances of a new selection, or
those of one that exists together with what is picked. -/
def MayIssue (p : Page) (e : PageEvent) : Fetch → Prop
  | .count _ _ => False
  | .newSelection _ => e = .addNewSelection
  | .extension id payload =>
      ∃ existing, p.snapshot.selections.get? id = some existing ∧
        payload = .ofFragment p.snapshot.filter p.snapshot.selection (some existing)

/-- What an event can come to. -/
inductive EventOutcome (p : Page) (e : PageEvent) : Page → Prop
  /-- A query string is read, or was read before. -/
  | located (location : Location) (he : e = .locationChanged location) :
      EventOutcome p e (p.onLocation location.search)
  /-- The location of a filter is visited. -/
  | filtered (filter : Filter) (he : e.edit? = none) : EventOutcome p e (p.applyFilter filter)
  /-- Only what is shown changes. -/
  | shown (s : Snapshot) (hs : p.snapshot.SameData s)
      (hedit : p.snapshot.selections.edits e.edit?.toList = p.snapshot.selections) :
      EventOutcome p e { p with snapshot := s }
  /-- The backend is asked about selections. -/
  | issued (fetch : Fetch) (hfetch : p.MayIssue e fetch) (he : e.edit? = none) :
      EventOutcome p e (p.issue fetch)
  /-- A selection is removed. -/
  | removed (id : UInt64) (s : Snapshot) (he : e = .removeSelection id)
      (hs : p.snapshot.withoutSelection id = .ok s) :
      EventOutcome p e (p.commitSelections (.ok s))

theorem outcome_showError (p : Page) (e : PageEvent) (error : PageError)
    (hedit : p.snapshot.selections.edits e.edit?.toList = p.snapshot.selections) :
    p.EventOutcome e (p.showError error) :=
  .shown _ ⟨rfl, rfl, rfl⟩ hedit

theorem outcome_addTo (p : Page) {e : PageEvent} (he : e.edit? = none) (id : UInt64) :
    p.EventOutcome e (p.addTo id) := by
  have hedit : p.snapshot.selections.edits e.edit?.toList = p.snapshot.selections := by
    rw [he]
    rfl
  unfold addTo
  cases hget : p.snapshot.selections.get? id with
  | none => exact outcome_showError p e _ hedit
  | some existing =>
      by_cases hempty : p.snapshot.selection.isEmpty = true
      · simp only [if_pos hempty]
        exact outcome_showError p e _ hedit
      · simp only [if_neg hempty]
        exact .issued _ ⟨existing, hget, rfl⟩ he

theorem outcome_dispatch (p : Page) (e : PageEvent) : p.EventOutcome e (p.dispatch e) := by
  -- Most events change only what is shown. Those that may fail report it, and change nothing else.
  cases e with
  | locationChanged location => exact .located location rfl
  | filterChanged patch => exact .filtered _ rfl
  | filterReset => exact .filtered _ rfl
  | workflowChanged workflow => exact .shown _ ⟨rfl, rfl, rfl⟩ rfl
  | flowNodesReady nodes => exact .shown _ ⟨rfl, rfl, rfl⟩ rfl
  | updateSelection fragment => exact .shown _ ⟨rfl, rfl, rfl⟩ rfl
  | toggleInstance id => exact .shown _ ⟨rfl, rfl, rfl⟩ rfl
  | selectAll => exact .shown _ ⟨rfl, rfl, rfl⟩ rfl
  | addNewSelection =>
      show p.EventOutcome .addNewSelection p.addNew
      unfold addNew
      split
      · exact outcome_showError p _ _ rfl
      · exact .issued _ rfl rfl
  | addToSelection id => exact outcome_addTo p rfl id
  | addToOpenSelection =>
      unfold dispatch
      cases p.snapshot.openSelection with
      | none => exact outcome_showError p _ _ rfl
      | some id => exact outcome_addTo p rfl id
  | toggleOpenSelection id =>
      simp only [dispatch, Snapshot.withOpenToggled]
      cases p.snapshot.selections.get? id with
      | none => exact outcome_showError p _ _ rfl
      | some existing => exact .shown _ ⟨rfl, rfl, rfl⟩ rfl
  | removeSelection id =>
      simp only [dispatch]
      cases hs : p.snapshot.withoutSelection id with
      | ok s => exact .removed id s rfl hs
      | error error =>
          refine outcome_showError p _ error ?_
          -- The removal fails in the list too, so as an edit it changes nothing.
          unfold Snapshot.withoutSelection at hs
          show p.snapshot.selections.edit (.remove id) = p.snapshot.selections
          cases hnext : p.snapshot.selections.without id with
          | error e => simp only [SelectionList.edit, hnext]; rfl
          | ok next =>
              rw [hnext] at hs
              cases hs
  | dismissError => exact .shown _ ⟨rfl, rfl, rfl⟩ rfl

/-! ## Outcomes of a completion -/

/-- What a completion can come to. -/
inductive CompletionOutcome (p : Page) (c : Completion) : Page → Prop
  /-- Only what is shown changes. -/
  | shown (s : Snapshot) (hs : p.snapshot.SameData s)
      (hedit : p.snapshot.selections.edits c.edit?.toList = p.snapshot.selections) :
      CompletionOutcome p c { p with snapshot := s, inFlight := p.inFlight - 1 }
  /-- The latest count has come. -/
  | counted (token : UInt64) (count : UInt64) (hc : c = .count token (.ok count))
      (hlatest : p.counts.isLatest token = true) :
      CompletionOutcome p c
        ({ p with
          snapshot := p.snapshot.withFilterCount count
          inFlight := p.inFlight - 1 }.store (.ofFilterCount count))
  /-- The selections are edited. -/
  | edited (edit : Edit) (s : Snapshot) (hc : c.edit? = some edit)
      (hfilter : s.filter = p.snapshot.filter)
      (hs : s.selections = p.snapshot.selections.edit edit) :
      CompletionOutcome p c ({ p with inFlight := p.inFlight - 1 }.commitSelections (.ok s))

theorem outcome_complete (p : Page) (c : Completion) : p.CompletionOutcome c (p.complete c) := by
  cases c with
  | count token result =>
      simp only [complete, applyCompletion]
      by_cases hlatest : p.counts.isLatest token = true
      · rw [if_pos hlatest]
        cases result with
        | ok count => exact .counted token count rfl hlatest
        | error e => exact .shown _ ⟨rfl, rfl, rfl⟩ rfl
      · -- The count for an older filter is dropped.
        rw [if_neg hlatest]
        exact .shown p.snapshot ⟨rfl, rfl, rfl⟩ rfl
  | newSelection payload result =>
      cases result with
      | ok details => exact .edited (.new payload details) _ rfl rfl rfl
      | error e => exact .shown _ ⟨rfl, rfl, rfl⟩ rfl
  | extension id payload result =>
      cases result with
      | error e => exact .shown _ ⟨rfl, rfl, rfl⟩ rfl
      | ok details =>
          simp only [complete, applyCompletion, Snapshot.withMergedSelection]
          cases hnext : p.snapshot.selections.withMerged id payload details with
          | error e =>
              -- The selection has been removed in the meantime.
              refine .shown _ ⟨rfl, rfl, rfl⟩ ?_
              show p.snapshot.selections.edit (.merge id payload details) = p.snapshot.selections
              simp only [SelectionList.edit, hnext]
              rfl
          | ok next =>
              refine .edited (.merge id payload details) _ rfl rfl ?_
              simp only [SelectionList.edit, hnext]
              rfl

/-! ## The selections -/

theorem selections_withoutSelection {s t : Snapshot} {id : UInt64}
    (h : s.withoutSelection id = .ok t) :
    t.selections = s.selections.edit (.remove id) := by
  unfold Snapshot.withoutSelection at h
  cases hnext : s.selections.without id with
  | error e =>
      rw [hnext] at h
      cases h
  | ok next =>
      rw [hnext] at h
      cases h
      simp only [SelectionList.edit, hnext]
      rfl

theorem selections_dispatch (p : Page) (e : PageEvent) :
    (p.dispatch e).snapshot.selections = p.snapshot.selections.edits e.edit?.toList := by
  have h := p.outcome_dispatch e
  generalize p.dispatch e = q at h ⊢
  cases h with
  | located location he =>
      rw [snapshot_onLocation, he]
      rfl
  | filtered filter he =>
      rw [snapshot_applyFilter, he]
      rfl
  | shown s hs hedit => exact hs.selections.trans hedit.symm
  | issued fetch hfetch he =>
      rw [he]
      rfl
  | removed id s he hs =>
      rw [snapshot_commitSelections_ok, selections_withoutSelection hs, he]
      rfl

theorem selections_complete (p : Page) (c : Completion) :
    (p.complete c).snapshot.selections = p.snapshot.selections.edits c.edit?.toList := by
  have h := p.outcome_complete c
  generalize p.complete c = q at h ⊢
  cases h with
  | shown s hs hedit => exact hs.selections.trans hedit.symm
  | counted token count hc hlatest =>
      rw [snapshot_store, hc]
      rfl
  | edited edit s hc hfilter hs =>
      rw [snapshot_commitSelections_ok, hs, hc]
      rfl

/-! ## The fetches -/

theorem fetches_onLocation (p : Page) (search : String) :
    ∃ issued, (p.onLocation search).fetches = p.fetches ++ issued ∧
      ∀ f ∈ issued, ∃ token criteria, f = .count token criteria := by
  unfold onLocation
  split
  · exact ⟨[], (List.append_nil _).symm, by simp⟩
  · unfold readSearch
    cases Filter.ofQuery search with
    | ok filter => exact ⟨_, rfl, by simp⟩
    | error e => exact ⟨_, rfl, by simp⟩

theorem fetches_applyFilter (p : Page) (filter : Filter) :
    ∃ issued, (p.applyFilter filter).fetches = p.fetches ++ issued ∧
      ∀ f ∈ issued, ∃ token criteria, f = .count token criteria := by
  obtain ⟨issued, hissued, hcount⟩ := fetches_onLocation (p.pushFilter filter) filter.toQuery
  refine ⟨issued, ?_, hcount⟩
  simp only [applyFilter, fetches_store]
  rw [hissued]
  simp only [pushFilter]

/-- An event issues counts, or what it may ask about selections. -/
theorem fetches_dispatch (p : Page) (e : PageEvent) :
    ∃ issued, (p.dispatch e).fetches = p.fetches ++ issued ∧
      ∀ f ∈ issued, (∃ token criteria, f = .count token criteria) ∨ p.MayIssue e f := by
  have h := p.outcome_dispatch e
  generalize p.dispatch e = q at h ⊢
  cases h with
  | located location he =>
      obtain ⟨issued, hissued, hcount⟩ := fetches_onLocation p location.search
      exact ⟨issued, hissued, fun f hf => .inl (hcount f hf)⟩
  | filtered filter he =>
      obtain ⟨issued, hissued, hcount⟩ := fetches_applyFilter p filter
      exact ⟨issued, hissued, fun f hf => .inl (hcount f hf)⟩
  | shown s hs hedit => exact ⟨[], (List.append_nil _).symm, by simp⟩
  | issued fetch hfetch he =>
      refine ⟨[fetch], rfl, ?_⟩
      intro f hf
      rw [List.mem_singleton.mp hf]
      exact .inr hfetch
  | removed id s he hs =>
      exact ⟨[], (fetches_commitSelections_ok p s).trans (List.append_nil _).symm, by simp⟩

theorem fetches_complete (p : Page) (c : Completion) : (p.complete c).fetches = p.fetches := by
  have h := p.outcome_complete c
  generalize p.complete c = q at h ⊢
  cases h with
  | shown s hs hedit => rfl
  | counted token count hc hlatest => rw [fetches_store]
  | edited edit s hc hfilter hs => rw [fetches_commitSelections_ok]

/-! ## Small steps

A relation between pages that composes, and holds across each small step that a message is made
of, holds across the message. -/

theorem filter_withoutSelection {s t : Snapshot} {id : UInt64}
    (h : s.withoutSelection id = .ok t) : t.filter = s.filter := by
  unfold Snapshot.withoutSelection at h
  split at h
  · cases h
  · cases h
    rfl

section

variable {R : Page → Page → Prop} (htrans : ∀ {p q r : Page}, R p q → R q r → R p r)
  (hstored : ∀ (p : Page) (patch : StatePatch), R p (p.store patch))
  (hshown : ∀ (p : Page) (s : Snapshot), s.filter = p.snapshot.filter →
    R p { p with snapshot := s })

include htrans hstored hshown

theorem dispatch_of_small_steps
    (hpushed : ∀ (p : Page) (filter : Filter), R p (p.pushFilter filter))
    (hlocated : ∀ (p : Page) (search : String), R p (p.onLocation search))
    (hissued : ∀ (p : Page) (e : PageEvent) (fetch : Fetch), p.MayIssue e fetch →
      R p (p.issue fetch))
    (p : Page) (e : PageEvent) : R p (p.dispatch e) := by
  have h := p.outcome_dispatch e
  generalize p.dispatch e = q at h ⊢
  cases h with
  | located location he => exact hlocated p location.search
  | filtered filter he =>
      exact htrans (htrans (hpushed p filter) (hlocated _ filter.toQuery)) (hstored _ _)
  | shown s hs hedit => exact hshown p s hs.filter
  | issued fetch hfetch he => exact hissued p e fetch hfetch
  | removed id s he hs => exact htrans (hshown p s (filter_withoutSelection hs)) (hstored _ _)

theorem complete_of_small_steps (hless : ∀ p : Page, R p { p with inFlight := p.inFlight - 1 })
    (p : Page) (c : Completion) : R p (p.complete c) := by
  have h := p.outcome_complete c
  generalize p.complete c = q at h ⊢
  have hanswered : ∀ s : Snapshot, s.filter = p.snapshot.filter →
      R p { p with snapshot := s, inFlight := p.inFlight - 1 } :=
    fun s hs => htrans (hless p) (hshown { p with inFlight := p.inFlight - 1 } s hs)
  cases h with
  | shown s hs hedit => exact hanswered s hs.filter
  | counted token count hc hlatest =>
      exact htrans (hanswered (p.snapshot.withFilterCount count) rfl) (hstored _ _)
  | edited edit s hc hfilter hs => exact htrans (hanswered s hfilter) (hstored _ _)

end

end Page

end InstanceConsole

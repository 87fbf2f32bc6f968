import InstanceConsole.Proofs.Page.Run

/-!
# What a page commits

A page updates three parts of the stored state: the filter, its count, and the list of selections
with its counters. A message commits one part at most. It gives the part new values in the
snapshot and queues the update that stores them, and the count and the selections change in no
other way (`commits_handle`). The filter does: a location may bring another one, which is not
stored.
-/

set_option autoImplicit false

namespace InstanceConsole

/-! ## Parts of the stored state -/

inductive StatePart
  | filter
  | filterCount
  /-- The selections, with the index and the two counts. -/
  | selections
  deriving DecidableEq

namespace StatePart

/-- The update that stores what a snapshot has for a part. -/
def patch : StatePart → Snapshot → StatePatch
  | .filter, s => .ofFilter s.filter
  | .filterCount, s => .ofFilterCount s.filterCount
  | .selections, s => .ofSelections s.selections

/-- What is stored for a part, as the update that would store it. -/
def held : StatePart → StoredState → StatePatch
  | .filter, s => { filter := s.filter }
  | .filterCount, s => { filterCount := some s.filterCount }
  | .selections, s =>
      { selections := some s.selections
        rollingSelectionIndex := some s.rollingSelectionIndex
        selectionCount := some s.selectionCount
        instancesInSelectionsCount := some s.instancesInSelectionsCount }

theorem isEmpty_patch (part : StatePart) (s : Snapshot) : (part.patch s).isEmpty = false := by
  cases part with
  | filter => simp [patch, StatePatch.ofFilter, StatePatch.isEmpty]
  | filterCount => simp [patch, StatePatch.ofFilterCount, StatePatch.isEmpty]
  | selections => simp [patch, StatePatch.ofSelections, StatePatch.isEmpty]

/-- An update of a part leaves that part with the values of the update. -/
theorem held_apply_patch (part : StatePart) (stored : StoredState) (s : Snapshot) :
    part.held (stored.apply (part.patch s)) = part.patch s := by
  cases part with
  | filter => rfl
  | filterCount => rfl
  | selections => rfl

theorem held_apply_patch_of_ne {part other : StatePart} (h : part ≠ other) (stored : StoredState)
    (s : Snapshot) : part.held (stored.apply (other.patch s)) = part.held stored := by
  cases part with
  | filter =>
      cases other with
      | filter => exact absurd rfl h
      | filterCount => rfl
      | selections => rfl
  | filterCount =>
      cases other with
      | filterCount => exact absurd rfl h
      | filter => rfl
      | selections => rfl
  | selections =>
      cases other with
      | selections => exact absurd rfl h
      | filter => rfl
      | filterCount => rfl

theorem eq_of_held_selections {s t : StoredState} (h : selections.held s = selections.held t) :
    s.selections = t.selections ∧ s.rollingSelectionIndex = t.rollingSelectionIndex :=
  ⟨Option.some.inj (congrArg StatePatch.selections h),
    Option.some.inj (congrArg StatePatch.rollingSelectionIndex h)⟩

end StatePart

/-- An update holds the whole list that it was made of. -/
theorem StatePatch.ofSelections_injective {l m : SelectionList}
    (h : ofSelections l = ofSelections m) : l = m := by
  cases l
  cases m
  simpa [ofSelections] using h

/-! ## One message -/

/-- The events that set the filter themselves, and do not leave it to a location. -/
def PageEvent.setsFilter : PageEvent → Bool
  | .filterChanged _ => true
  | .filterReset => true
  | _ => false

namespace Page

/-- The part of the stored state that a message commits: the filter when it is set, its count when
the latest one has come, and the selections when one is created, extended or removed. -/
def commits? (p : Page) : PageMessage → Option StatePart
  | .event (.removeSelection id) =>
      if (p.snapshot.selections.get? id).isSome then some .selections else none
  | .event e => if e.setsFilter then some .filter else none
  | .completion (.count token (.ok _)) =>
      if p.counts.isLatest token then some .filterCount else none
  | .completion (.newSelection _ (.ok _)) => some .selections
  | .completion (.extension id _ (.ok _)) =>
      if (p.snapshot.selections.get? id).isSome then some .selections else none
  | .completion _ => none

/-- A page commits one part of the stored state, or none, on the way to another page. -/
structure Commits (p : Page) (part? : Option StatePart) (q : Page) : Prop where
  writes : q.writes = p.writes ++ (part?.map (·.patch q.snapshot)).toList
  filterCount : part? ≠ some .filterCount → q.snapshot.filterCount = p.snapshot.filterCount
  selections : part? ≠ some .selections → q.snapshot.selections = p.snapshot.selections

/-- Steps that commit nothing may come before one that may. -/
theorem Commits.trans {p q r : Page} {part? : Option StatePart} (hpq : p.Commits none q)
    (hqr : q.Commits part? r) : p.Commits part? r where
  writes := by
    have hq : q.writes = p.writes := by simpa using hpq.writes
    rw [hqr.writes, hq]
  filterCount h := (hqr.filterCount h).trans (hpq.filterCount (by simp))
  selections h := (hqr.selections h).trans (hpq.selections (by simp))

theorem commits_shown {p q : Page} (hs : p.snapshot.SameData q.snapshot)
    (hwrites : q.writes = p.writes) : p.Commits none q where
  writes := hwrites.trans (List.append_nil _).symm
  filterCount _ := hs.filterCount
  selections _ := hs.selections

/-- The update of a part is never left out. -/
theorem store_patch (p : Page) (part : StatePart) (s : Snapshot) :
    p.store (part.patch s) = { p with writes := p.writes ++ [part.patch s] } := by
  rw [store, part.isEmpty_patch]
  rfl

/-- Storing a part after its values have changed in the snapshot commits it. -/
theorem commits_store {p q : Page} (part : StatePart) (hwrites : q.writes = p.writes)
    (hcount : part ≠ .filterCount → q.snapshot.filterCount = p.snapshot.filterCount)
    (hselections : part ≠ .selections → q.snapshot.selections = p.snapshot.selections) :
    p.Commits (some part) (q.store (part.patch q.snapshot)) where
  writes := by
    rw [store_patch, ← hwrites]
    rfl
  filterCount h := by
    rw [snapshot_store]
    exact hcount fun heq => h (congrArg some heq)
  selections h := by
    rw [snapshot_store]
    exact hselections fun heq => h (congrArg some heq)

theorem commits_readSearch (p : Page) (search : String) :
    p.Commits none (p.readSearch search) := by
  unfold readSearch
  cases Filter.ofQuery search with
  | ok filter => exact ⟨(List.append_nil _).symm, fun _ => rfl, fun _ => rfl⟩
  | error e => exact ⟨(List.append_nil _).symm, fun _ => rfl, fun _ => rfl⟩

theorem commits_mount (stored : StoredState) (location : Location) :
    Commits { snapshot := .ofStored stored, history := { current := location } } none
      (mount stored location) :=
  commits_readSearch _ _

theorem commits_onLocation (p : Page) (search : String) :
    p.Commits none (p.onLocation search) := by
  unfold onLocation
  split
  · exact commits_shown ⟨rfl, rfl, rfl⟩ rfl
  · exact commits_readSearch p search

theorem commits_applyFilter (p : Page) (filter : Filter) :
    p.Commits (some .filter) (p.applyFilter filter) := by
  have hpushed : p.Commits none (p.pushFilter filter) := by
    unfold pushFilter
    exact commits_shown ⟨rfl, rfl, rfl⟩ rfl
  -- The page stores nothing before the filter that it ends with.
  have hmoved := hpushed.trans (commits_onLocation _ filter.toQuery)
  have hwrites : ((p.pushFilter filter).onLocation filter.toQuery).writes = p.writes := by
    simpa using hmoved.writes
  exact commits_store .filter hwrites (fun _ => hmoved.filterCount (by simp))
    (fun _ => hmoved.selections (by simp))

theorem commits_addTo (p : Page) (id : UInt64) : p.Commits none (p.addTo id) := by
  unfold addTo
  cases p.snapshot.selections.get? id with
  | none => exact commits_shown ⟨rfl, rfl, rfl⟩ rfl
  | some existing =>
      by_cases hempty : p.snapshot.selection.isEmpty = true
      · simp only [if_pos hempty]
        exact commits_shown ⟨rfl, rfl, rfl⟩ rfl
      · simp only [if_neg hempty]
        exact commits_shown ⟨rfl, rfl, rfl⟩ rfl

/-- Taking a snapshot with other selections commits them. -/
theorem commits_commitSelections_ok {p : Page} {s : Snapshot}
    (hcount : s.filterCount = p.snapshot.filterCount) :
    p.Commits (some .selections) (p.commitSelections (.ok s)) :=
  commits_store (q := { p with snapshot := s }) .selections rfl (fun _ => hcount)
    (fun h => absurd rfl h)

theorem commits_dispatch (p : Page) (e : PageEvent) :
    p.Commits (p.commits? (.event e)) (p.dispatch e) := by
  -- Most events change only what is shown, or ask the backend.
  cases e with
  | locationChanged location => exact commits_onLocation p location.search
  | filterChanged patch => exact commits_applyFilter p _
  | filterReset => exact commits_applyFilter p _
  | workflowChanged workflow => exact commits_shown ⟨rfl, rfl, rfl⟩ rfl
  | flowNodesReady nodes => exact commits_shown ⟨rfl, rfl, rfl⟩ rfl
  | updateSelection fragment => exact commits_shown ⟨rfl, rfl, rfl⟩ rfl
  | toggleInstance id => exact commits_shown ⟨rfl, rfl, rfl⟩ rfl
  | selectAll => exact commits_shown ⟨rfl, rfl, rfl⟩ rfl
  | addNewSelection =>
      show p.Commits none p.addNew
      unfold addNew
      split
      · exact commits_shown ⟨rfl, rfl, rfl⟩ rfl
      · exact commits_shown ⟨rfl, rfl, rfl⟩ rfl
  | addToSelection id => exact commits_addTo p id
  | addToOpenSelection =>
      simp only [dispatch]
      cases p.snapshot.openSelection with
      | none => exact commits_shown ⟨rfl, rfl, rfl⟩ rfl
      | some id => exact commits_addTo p id
  | toggleOpenSelection id =>
      simp only [dispatch, Snapshot.withOpenToggled]
      cases p.snapshot.selections.get? id with
      | none => exact commits_shown ⟨rfl, rfl, rfl⟩ rfl
      | some existing => exact commits_shown ⟨rfl, rfl, rfl⟩ rfl
  | removeSelection id =>
      simp only [dispatch, commits?, Snapshot.withoutSelection, SelectionList.without]
      cases p.snapshot.selections.get? id with
      | none => exact commits_shown ⟨rfl, rfl, rfl⟩ rfl
      | some removed => exact commits_commitSelections_ok rfl
  | dismissError => exact commits_shown ⟨rfl, rfl, rfl⟩ rfl

theorem commits_applyCompletion (p : Page) (c : Completion) :
    p.Commits (p.commits? (.completion c)) (p.applyCompletion c) := by
  cases c with
  | count token result =>
      cases result with
      | error e =>
          simp only [applyCompletion, commits?]
          split
          · exact commits_shown ⟨rfl, rfl, rfl⟩ rfl
          · exact commits_shown ⟨rfl, rfl, rfl⟩ rfl
      | ok count =>
          simp only [applyCompletion, commits?]
          split
          · exact commits_store (q := { p with snapshot := p.snapshot.withFilterCount count })
              .filterCount rfl (fun h => absurd rfl h) (fun _ => rfl)
          · exact commits_shown ⟨rfl, rfl, rfl⟩ rfl
  | newSelection payload result =>
      cases result with
      | error e => exact commits_shown ⟨rfl, rfl, rfl⟩ rfl
      | ok details => exact commits_commitSelections_ok rfl
  | extension id payload result =>
      cases result with
      | error e => exact commits_shown ⟨rfl, rfl, rfl⟩ rfl
      | ok details =>
          simp only [applyCompletion, commits?, Snapshot.withMergedSelection,
            SelectionList.withMerged]
          cases p.snapshot.selections.get? id with
          | none => exact commits_shown ⟨rfl, rfl, rfl⟩ rfl
          | some previous => exact commits_commitSelections_ok rfl

theorem commits_complete (p : Page) (c : Completion) :
    p.Commits (p.commits? (.completion c)) (p.complete c) := by
  -- That one fetch less is in flight changes nothing of what is committed.
  have hless : p.Commits none { p with inFlight := p.inFlight - 1 } :=
    commits_shown ⟨rfl, rfl, rfl⟩ rfl
  have hcommits : ({ p with inFlight := p.inFlight - 1 } : Page).commits? (.completion c) =
      p.commits? (.completion c) := rfl
  rw [← hcommits]
  exact hless.trans (commits_applyCompletion _ c)

theorem commits_handle (p : Page) (m : PageMessage) : p.Commits (p.commits? m) (p.handle m) := by
  cases m with
  | event e => exact commits_dispatch p e
  | completion c => exact commits_complete p c

end Page

namespace LivePage

/-- Mounting a page takes the count and the selections from the store, the latter with their
counters put right. -/
theorem snapshot_mount (stored : StoredState) (location : Location) :
    (mount stored location).page.snapshot.filterCount = stored.filterCount ∧
      (mount stored location).page.snapshot.selections = stored.selectionList := by
  have hmount := Page.commits_mount stored location
  exact ⟨hmount.filterCount (by simp), hmount.selections (by simp)⟩

/-! ## One move -/

/-- The part of the stored state that a move commits. -/
def commits? (l : LivePage) (m : Move) : Option StatePart := (l.message? m).bind l.page.commits?

theorem commits_step (l : LivePage) (m : Move) : l.page.Commits (l.commits? m) (l.step m).page := by
  unfold commits?
  rcases l.page_step m with ⟨message, hmessage, hpage⟩ | ⟨hmessage, history, hpage⟩
  · rw [hmessage, hpage]
    exact l.page.commits_handle message
  · rw [hmessage, hpage]
    exact Page.commits_shown ⟨rfl, rfl, rfl⟩ rfl

theorem commits?_event_filter_iff (l : LivePage) (e : PageEvent) :
    l.commits? (.event e) = some .filter ↔ e.setsFilter = true := by
  show l.page.commits? (.event e) = some .filter ↔ _
  cases e with
  | removeSelection id => simp [Page.commits?, PageEvent.setsFilter]
  | _ => simp [Page.commits?, PageEvent.setsFilter]

/-- The filter is committed by events alone. -/
theorem commits?_filter {l : LivePage} {m : Move} (h : l.commits? m = some .filter) :
    ∃ e, m = .event e ∧ e.setsFilter = true := by
  cases m with
  | event e => exact ⟨e, rfl, (l.commits?_event_filter_iff e).mp h⟩
  | visit location => simp [commits?, message?] at h
  | answer number reply =>
      obtain ⟨message, hmessage, hcommits⟩ := Option.bind_eq_some_iff.mp h
      obtain ⟨fetch, -, rfl⟩ := Option.map_eq_some_iff.mp hmessage
      -- A completion commits the count or the selections.
      generalize fetch.completion reply = c at hcommits
      cases c with
      | count token result => cases result <;> simp [Page.commits?] at hcommits
      | newSelection payload result => cases result <;> simp [Page.commits?] at hcommits
      | extension id payload result => cases result <;> simp [Page.commits?] at hcommits

/-- What a part has in the snapshot changes by commits of that part alone, but for the filter. -/
theorem patch_run {part : StatePart} (hpart : part ≠ .filter) {l : LivePage} {moves : List Move}
    (hnone : ∀ before m after, moves = before ++ m :: after →
      (l.run before).commits? m ≠ some part) :
    part.patch (l.run moves).page.snapshot = part.patch l.page.snapshot := by
  induction moves generalizing l with
  | nil => rfl
  | cons m moves ih =>
      have hcommits := l.commits_step m
      have hm : l.commits? m ≠ some part := hnone [] m moves rfl
      have hstep : part.patch (l.step m).page.snapshot = part.patch l.page.snapshot := by
        cases part with
        | filter => exact absurd rfl hpart
        | filterCount => exact congrArg StatePatch.ofFilterCount (hcommits.filterCount hm)
        | selections => exact congrArg StatePatch.ofSelections (hcommits.selections hm)
      rw [run_cons, ih, hstep]
      intro before next after hsplit
      exact hnone (m :: before) next after (by rw [hsplit]; rfl)

end LivePage

end InstanceConsole

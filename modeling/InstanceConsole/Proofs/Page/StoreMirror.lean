import InstanceConsole.Proofs.Page.Commits

/-!
# What the store holds of a page

The updates that a page queues are tried in order. One that fails is dropped, and the page is not
told. So once all of them have been tried, each part of the stored state has the values of its
last successful update, or those from before the page was mounted (`held_run`). When none fails
the stored state follows the snapshot, though not in every field: a filter that a location brings
is not stored, and the counters that are put right on loading are stored only with the next change
of the selections.
-/

set_option autoImplicit false

namespace InstanceConsole

/-! ## Updates that may fail -/

/-- The stored state after some updates in turn. `written` says by its number whether an update
succeeds; one that fails leaves the state as it was. -/
def StoredState.applyWritten (s : StoredState) (written : Nat → Bool)
    (patches : List StatePatch) : StoredState :=
  patches.zipIdx.foldl (fun s (patch, number) => if written number then s.apply patch else s) s

theorem StoredState.applyWritten_append (s : StoredState) (written : Nat → Bool)
    (patches : List StatePatch) (patch : StatePatch) :
    s.applyWritten written (patches ++ [patch]) =
      if written patches.length then (s.applyWritten written patches).apply patch
      else s.applyWritten written patches := by
  simp [applyWritten, List.zipIdx_append]

theorem StoredState.applyWritten_true (s : StoredState) (patches : List StatePatch) :
    s.applyWritten (fun _ => true) patches = patches.foldl StoredState.apply s := by
  have hmap : (patches.zipIdx.map Prod.fst).foldl StoredState.apply s =
      patches.zipIdx.foldl (fun s numbered => s.apply numbered.1) s := List.foldl_map
  rw [List.zipIdx_map_fst] at hmap
  exact hmap.symm

namespace LivePage

variable (stored : StoredState) (written : Nat → Bool)

/-- The stored state once all updates that the page has queued have been tried. -/
def store (l : LivePage) : StoredState := stored.applyWritten written l.page.writes

/-- A move that follows some others commits a part of the stored state, and its update succeeds. -/
def WritesAt (l : LivePage) (part : StatePart) (before : List Move) (m : Move) : Prop :=
  (l.run before).commits? m = some part ∧ written (l.run before).page.writes.length = true

/-- Of the moves of a run one is the last that writes a part of the stored state. -/
structure LastWrite (l : LivePage) (part : StatePart) (before : List Move) (m : Move)
    (after : List Move) : Prop where
  writes : l.WritesAt written part before m
  last : ∀ between next rest, after = between ++ next :: rest →
    ¬ l.WritesAt written part (before ++ m :: between) next

variable {stored written} {part : StatePart} {l : LivePage} {m : Move} {moves : List Move}

/-! ## One move -/

theorem store_step_of_none (h : l.commits? m = none) :
    (l.step m).store stored written = l.store stored written := by
  have hwrites : (l.step m).page.writes = l.page.writes := by
    simpa [h] using (l.commits_step m).writes
  rw [store, hwrites, store]

theorem store_step_of_some (h : l.commits? m = some part) :
    (l.step m).store stored written =
      if written l.page.writes.length then
        (l.store stored written).apply (part.patch (l.step m).page.snapshot)
      else l.store stored written := by
  have hwrites : (l.step m).page.writes =
      l.page.writes ++ [part.patch (l.step m).page.snapshot] := by
    simpa [h] using (l.commits_step m).writes
  rw [store, hwrites, StoredState.applyWritten_append]
  rfl

/-- A move that writes a part stores what the snapshot has for it afterwards. -/
theorem held_step_of_writesAt (stored : StoredState) (h : l.WritesAt written part [] m) :
    part.held ((l.step m).store stored written) = part.patch (l.step m).page.snapshot := by
  obtain ⟨hcommits, hwritten⟩ := h
  have hcommits : l.commits? m = some part := hcommits
  have hwritten : written l.page.writes.length = true := hwritten
  rw [store_step_of_some hcommits, if_pos hwritten, StatePart.held_apply_patch]

/-- Any other move leaves alone what is stored for the part. -/
theorem held_step_of_not_writesAt (stored : StoredState) (h : ¬ l.WritesAt written part [] m) :
    part.held ((l.step m).store stored written) = part.held (l.store stored written) := by
  cases hcommits : l.commits? m with
  | none => rw [store_step_of_none hcommits]
  | some other =>
      rw [store_step_of_some hcommits]
      by_cases hwritten : written l.page.writes.length = true
      · have hne : part ≠ other := by
          rintro rfl
          exact h ⟨hcommits, hwritten⟩
        rw [if_pos hwritten, StatePart.held_apply_patch_of_ne hne]
      · rw [if_neg hwritten]

/-- The numbers in the header are never stored. -/
theorem header_step (stored : StoredState) (written : Nat → Bool) (l : LivePage) (m : Move) :
    ((l.step m).store stored written).running = (l.store stored written).running ∧
      ((l.step m).store stored written).incidents = (l.store stored written).incidents := by
  cases hcommits : l.commits? m with
  | none =>
      rw [store_step_of_none hcommits]
      exact ⟨rfl, rfl⟩
  | some part =>
      rw [store_step_of_some hcommits]
      split
      · cases part with
        | filter => exact ⟨rfl, rfl⟩
        | filterCount => exact ⟨rfl, rfl⟩
        | selections => exact ⟨rfl, rfl⟩
      · exact ⟨rfl, rfl⟩

/-! ## Runs -/

theorem header_run (stored : StoredState) (written : Nat → Bool) (l : LivePage)
    (moves : List Move) :
    ((l.run moves).store stored written).running = (l.store stored written).running ∧
      ((l.run moves).store stored written).incidents = (l.store stored written).incidents := by
  refine run_induction
    (P := fun next => (next.store stored written).running = (l.store stored written).running ∧
      (next.store stored written).incidents = (l.store stored written).incidents)
    (fun next m _ h => ?_) ⟨rfl, rfl⟩
  obtain ⟨hrunning, hincidents⟩ := header_step stored written next m
  exact ⟨hrunning.trans h.1, hincidents.trans h.2⟩

/-- What is stored for a part after a run: what the snapshot had for it after the last move that
wrote it, or what was stored before when no move did. -/
theorem held_run (stored : StoredState) (written : Nat → Bool) (part : StatePart) (l : LivePage)
    (moves : List Move) :
    (∃ before m after, moves = before ++ m :: after ∧ l.LastWrite written part before m after ∧
      part.held ((l.run moves).store stored written) =
        part.patch (l.run (before ++ [m])).page.snapshot) ∨
    (∀ before m after, moves = before ++ m :: after → ¬ l.WritesAt written part before m) ∧
      part.held ((l.run moves).store stored written) = part.held (l.store stored written) := by
  induction moves generalizing l with
  | nil => exact .inr ⟨by simp, rfl⟩
  | cons m moves ih =>
      -- A write among the later moves is the last one. Otherwise it may be that of this move.
      rcases ih (l.step m) with ⟨before, last, after, hsplit, hlast, hheld⟩ | ⟨hnone, hheld⟩
      · refine .inl ⟨m :: before, last, after, by rw [hsplit]; rfl, ?_, hheld⟩
        exact ⟨hlast.writes, hlast.last⟩
      · by_cases hm : l.WritesAt written part [] m
        · refine .inl ⟨[], m, moves, rfl, ⟨hm, ?_⟩, ?_⟩
          · intro between next rest hsplit
            exact hnone between next rest hsplit
          · exact hheld.trans (held_step_of_writesAt stored hm)
        · refine .inr ⟨?_, hheld.trans (held_step_of_not_writesAt stored hm)⟩
          intro before next after hsplit
          cases before with
          | nil =>
              obtain ⟨rfl, rfl⟩ := List.cons.inj hsplit
              exact hm
          | cons first before =>
              obtain ⟨rfl, hrest⟩ := List.cons.inj hsplit
              exact hnone before next after hrest

/-! ## Runs without a failed write -/

/-- The updates that have been queued stay queued. -/
theorem writes_run (l : LivePage) (moves : List Move) :
    l.page.writes <+: (l.run moves).page.writes := by
  refine run_induction (P := fun next => l.page.writes <+: next.page.writes)
    (fun next m _ h => h.trans ?_) (List.prefix_refl _)
  rw [(next.commits_step m).writes]
  exact List.prefix_append _ _

/-- When no write of a run fails, every commit writes. -/
theorem writesAt_of_commits
    (hall : ∀ number < (l.run moves).page.writes.length, written number = true)
    {before after : List Move} (hsplit : moves = before ++ m :: after)
    (h : (l.run before).commits? m = some part) : l.WritesAt written part before m := by
  refine ⟨h, hall _ ?_⟩
  have hqueued : ((l.run before).step m).page.writes.length =
      (l.run before).page.writes.length + 1 := by
    simp [((l.run before).commits_step m).writes, h]
  have hlater := (writes_run ((l.run before).step m) after).length_le
  rw [hsplit, run_append, run_cons]
  omega

/-- When no write fails, the store mirrors a part other than the filter: it has what the snapshot
has if the part was committed, and otherwise neither of the two has changed. -/
theorem held_run_of_forall_written (stored : StoredState) (hpart : part ≠ .filter)
    (hall : ∀ number < (l.run moves).page.writes.length, written number = true) :
    part.held ((l.run moves).store stored written) = part.patch (l.run moves).page.snapshot ∨
    (∀ before m after, moves = before ++ m :: after → (l.run before).commits? m ≠ some part) ∧
      part.held ((l.run moves).store stored written) = part.held (l.store stored written) ∧
      part.patch (l.run moves).page.snapshot = part.patch l.page.snapshot := by
  rcases held_run stored written part l moves with
    ⟨before, m, after, hsplit, hlast, hheld⟩ | ⟨hnone, hheld⟩
  · left
    -- No commit follows the last write, so the snapshot still has what was written.
    have hlater : part.patch ((l.run (before ++ [m])).run after).page.snapshot =
        part.patch (l.run (before ++ [m])).page.snapshot := by
      refine patch_run hpart ?_
      intro between next rest hrest hcommits
      have hposition : moves = (before ++ m :: between) ++ next :: rest := by
        rw [hsplit, hrest, List.append_assoc]
        rfl
      rw [← run_append, List.append_assoc] at hcommits
      exact hlast.last between next rest hrest (writesAt_of_commits hall hposition hcommits)
    rw [hheld, ← hlater, ← run_append, List.append_assoc, hsplit]
    rfl
  · right
    have hcommits : ∀ before m after, moves = before ++ m :: after →
        (l.run before).commits? m ≠ some part :=
      fun before m after hsplit h => hnone before m after hsplit
        (writesAt_of_commits hall hsplit h)
    exact ⟨hcommits, hheld, patch_run hpart hcommits⟩

/-- Without an event that sets it the stored filter stays, whatever filters locations bring. -/
theorem filter_run_of_not_setsFilter (hnone : ∀ e, .event e ∈ moves → e.setsFilter = false) :
    ((l.run moves).store stored written).filter = (l.store stored written).filter := by
  rcases held_run stored written .filter l moves with
    ⟨before, m, after, hsplit, hlast, -⟩ | ⟨-, hheld⟩
  · obtain ⟨e, rfl, he⟩ := commits?_filter hlast.writes.1
    have hmem : Move.event e ∈ moves := by simp [hsplit]
    rw [hnone e hmem] at he
    cases he
  · exact congrArg StatePatch.filter hheld

/-- When no write fails, the stored filter is that of the page after the last event that set
it. -/
theorem filter_run_of_setsFilter
    (hall : ∀ number < (l.run moves).page.writes.length, written number = true)
    {before after : List Move} {e : PageEvent} (hsplit : moves = before ++ .event e :: after)
    (he : e.setsFilter = true) (hlater : ∀ f, .event f ∈ after → f.setsFilter = false) :
    ((l.run moves).store stored written).filter =
      some (l.run (before ++ [.event e])).page.snapshot.filter := by
  have hcommits : (l.run before).commits? (.event e) = some .filter :=
    (commits?_event_filter_iff _ e).mpr he
  have hwrites : (l.run before).WritesAt written .filter [] (.event e) :=
    writesAt_of_commits hall hsplit hcommits
  have hset := held_step_of_writesAt stored hwrites
  have hrun : l.run moves = ((l.run before).step (.event e)).run after := by
    rw [hsplit, run_append, run_cons]
  rw [hrun, filter_run_of_not_setsFilter hlater, run_append]
  exact congrArg StatePatch.filter hset

/-! ## The mirror -/

/-- What is stored for the selections is all that their list is loaded from. -/
theorem selectionList_of_held {s t : StoredState}
    (h : StatePart.selections.held s = StatePart.selections.held t) :
    s.selectionList = t.selectionList := by
  obtain ⟨hselections, hindex⟩ := StatePart.eq_of_held_selections h
  rw [StoredState.selectionList, hselections, hindex, StoredState.selectionList]

theorem store_mount (stored : StoredState) (written : Nat → Bool) (location : Location) :
    (mount stored location).store stored written = stored := by
  have hwrites : (mount stored location).page.writes = [] :=
    (Page.commits_mount stored location).writes
  rw [store, hwrites]
  rfl

/-- **The store mirrors the page.** Mount a page, let anything happen, and let any of its writes
fail. Once all have been tried, each part of the stored state has the values that the page had
right after the last move that wrote the part, or its initial values if none did; the selections
and their counters are a single part, so they come from one list. The numbers in the header never
change. If no write failed, the stored count is the one that the page shows; the stored filter is
the one after the last event that set the filter; and the stored selections are those of the page
as soon as one has been created, extended or removed. Until then they are untouched, and load as
the list of the page. -/
theorem store_mirrors_page (stored : StoredState) (location : Location) (written : Nat → Bool)
    (moves : List Move) :
    let start := mount stored location
    let l := start.run moves
    let store := l.store stored written
    (∀ part : StatePart,
      (∃ before m after, moves = before ++ m :: after ∧
        start.LastWrite written part before m after ∧
        part.held store = part.patch (start.run (before ++ [m])).page.snapshot) ∨
      (∀ before m after, moves = before ++ m :: after → ¬ start.WritesAt written part before m) ∧
        part.held store = part.held stored) ∧
    store.running = stored.running ∧ store.incidents = stored.incidents ∧
    ((∀ number < l.page.writes.length, written number = true) →
      store.filterCount = l.page.snapshot.filterCount ∧
      (∀ before e after, moves = before ++ .event e :: after → e.setsFilter = true →
        (∀ f, .event f ∈ after → f.setsFilter = false) →
        store.filter = some (start.run (before ++ [.event e])).page.snapshot.filter) ∧
      ((∀ e, .event e ∈ moves → e.setsFilter = false) → store.filter = stored.filter) ∧
      ((∃ before m after, moves = before ++ m :: after ∧
          (start.run before).commits? m = some .selections) →
        StatePart.selections.held store = StatePart.selections.patch l.page.snapshot) ∧
      ((∀ before m after, moves = before ++ m :: after →
          (start.run before).commits? m ≠ some .selections) →
        StatePart.selections.held store = StatePart.selections.held stored ∧
          store.selectionList = l.page.snapshot.selections)) := by
  intro start l store
  have hinitial : start.store stored written = stored := store_mount stored written location
  obtain ⟨hcount, hselections⟩ := snapshot_mount stored location
  obtain ⟨hrunning, hincidents⟩ := header_run stored written start moves
  rw [hinitial] at hrunning hincidents
  refine ⟨?_, hrunning, hincidents, ?_⟩
  · intro part
    have hheld := held_run stored written part start moves
    rw [hinitial] at hheld
    exact hheld
  · intro hall
    refine ⟨?_, ?_, ?_, ?_, ?_⟩
    · have hne : StatePart.filterCount ≠ .filter := by simp
      rcases held_run_of_forall_written stored hne hall with hmirror | ⟨-, hheld, hpatch⟩
      · exact Option.some.inj (congrArg StatePatch.filterCount hmirror)
      · -- Neither has changed since the page took the count from the store.
        rw [hinitial] at hheld
        have hstore := Option.some.inj (congrArg StatePatch.filterCount hheld)
        have hpage := Option.some.inj (congrArg StatePatch.filterCount hpatch)
        calc store.filterCount = stored.filterCount := hstore
          _ = start.page.snapshot.filterCount := hcount.symm
          _ = l.page.snapshot.filterCount := hpage.symm
    · intro before e after hsplit he hlater
      exact filter_run_of_setsFilter hall hsplit he hlater
    · intro hnone
      exact (filter_run_of_not_setsFilter hnone).trans (congrArg StoredState.filter hinitial)
    · rintro ⟨before, m, after, hsplit, hcommits⟩
      have hne : StatePart.selections ≠ .filter := by simp
      rcases held_run_of_forall_written stored hne hall with hmirror | ⟨hnone, -, -⟩
      · exact hmirror
      · exact absurd hcommits (hnone before m after hsplit)
    · intro hnone
      have hpage : l.page.snapshot.selections = start.page.snapshot.selections :=
        StatePatch.ofSelections_injective
          (patch_run (show StatePart.selections ≠ .filter by simp) hnone)
      rcases held_run stored written .selections start moves with
        ⟨before, m, after, hsplit, hlast, -⟩ | ⟨-, hheld⟩
      · exact absurd hlast.writes.1 (hnone before m after hsplit)
      · rw [hinitial] at hheld
        refine ⟨hheld, ?_⟩
        calc store.selectionList = stored.selectionList := selectionList_of_held hheld
          _ = start.page.snapshot.selections := hselections.symm
          _ = l.page.snapshot.selections := hpage.symm

end LivePage

end InstanceConsole

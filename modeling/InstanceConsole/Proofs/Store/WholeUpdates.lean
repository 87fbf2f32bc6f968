import InstanceConsole.Proofs.Store.Refinement
import InstanceConsole.Proofs.Store.Ways

/-!
# Updates as a whole or not at all

An update of a state file reads the state, makes the directories of the path, writes the temporary
file and moves it into place, and each of these may fail. When it succeeds the file holds the
updated state, and besides it only missing directories have been made. When it fails the tree is
as it was, for the directories are made only where nothing else can go wrong any more: what lies
below a missing directory is missing too.

A path that goes up again out of a directory that is missing is an exception. Its directory is
made, and then the file may still meet an obstacle somewhere else. A path with a slash behind its
last name is another: only the last step refuses it, and by then the temporary file has been written
(`put_leaves_traces`). More than these traces no update leaves behind.
-/

set_option autoImplicit false

namespace InstanceConsole

namespace StateFile

variable {f : StateFile} {name : String} {t : FileTree}

/-! ## Updates that succeed -/

/-- A state is replaced only on an open way to a file, where there is room for it and for the
temporary one. -/
theorem room_of_replace_eq_ok (hlast : f.path.steps.getLast? = some (.down name))
    {s : StoredState} {moved : FileTree} (h : f.replace t s = (moved, .ok ())) :
    t.IsOpenTo f.current f.path ∧ f.path.toDirectory = false ∧
      t.nodeAt (f.path.siblingPlace f.current name) ≠ some .directory ∧
      t.nodeAt (f.path.siblingPlace f.current (temporaryName name)) ≠ some .directory := by
  unfold replace at h
  rw [temporary_eq hlast] at h
  split at h
  · cases h
  next written hwrite =>
    split at h
    · cases h
    next after hrename =>
      obtain ⟨hopen, hinsert⟩ := FileTree.insert_of_write hwrite
      obtain ⟨htemporary, hnodes⟩ := FileTree.nodeAt_of_insert hinsert
      obtain ⟨hfile, hfree⟩ := FileTree.file_of_rename_eq_ok (hopen.of_insert hinsert) hlast
        (by rw [hnodes, if_pos rfl]) hrename
      rw [hnodes, if_neg (f.siblingPlace_ne_temporary name)] at hfree
      exact ⟨hopen, hfile, hfree, htemporary⟩

/-- An update succeeds only on a path that leads to a file, with room around it, and after the
state has been read. -/
theorem room_of_put_eq_ok (hlast : f.path.steps.getLast? = some (.down name))
    {patch : StatePatch} {next : FileTree} (h : f.put t patch = (next, .ok ())) :
    ∃ s, f.get t = .ok s ∧ f.LeadsToFile name ∧ f.HasRoom name t := by
  unfold put at h
  split at h
  · cases h
  next s hget =>
    split at h
    · cases h
    next made hmake =>
      obtain ⟨hstart, hclear⟩ := FileTree.isClear_of_makeWay hmake
      rw [FileTree.makeWay_of_start hstart] at hmake
      rw [FileTree.origin_parent] at hmake hstart hclear
      obtain ⟨again, hagain, hmade⟩ := FileTree.makeDirectories_of_isClear hstart hclear
      obtain rfl : made = again := congrArg Prod.fst (hmake.symm.trans hagain)
      obtain ⟨hopen, hfile, hfree, htemporary⟩ := room_of_replace_eq_ok hlast h
      -- What is no directory now is none of those that were made.
      have haside : f.path.siblingPlace f.current name ∉ _ := fun hp => hfree (hopen.way _ hp)
      have htemporaryAside : f.path.siblingPlace f.current (temporaryName name) ∉ _ :=
        fun hp => htemporary (hopen.way _ hp)
      rw [hmade, if_neg haside] at hfree
      rw [hmade, if_neg htemporaryAside] at htemporary
      exact ⟨s, hget, ⟨hlast, hfile, haside, htemporaryAside⟩, hstart, hclear, hfree, htemporary⟩

/-! ## Updates that fail -/

/-- What a failed update may leave at a place: a directory on the way that was missing, or the
updated state in the temporary file. -/
inductive Trace (f : StateFile) (name : String) (patch : StatePatch) (before after : FileTree)
    (p : Place) : Prop
  | directory
      (hway : p ∈ FileTree.entered (FileTree.origin f.current f.path) f.path.parent.steps)
      (hbefore : before.nodeAt p = none) (hafter : after.nodeAt p = some .directory)
  | temporary {s : StoredState} (hget : f.get before = .ok s)
      (hp : p = f.path.siblingPlace f.current (temporaryName name))
      (hbefore : before.nodeAt p ≠ some .directory)
      (hafter : after.nodeAt p = some (.file (Utf8.ofString (encode (s.apply patch)))))

/-- When a state is not replaced, the temporary file is all that may have been written. -/
theorem nodeAt_of_replace_eq_error (hlast : f.path.steps.getLast? = some (.down name))
    {s : StoredState} {next : FileTree} {e : StoreError} (h : f.replace t s = (next, .error e))
    (p : Place) :
    next.nodeAt p = t.nodeAt p ∨
      p = f.path.siblingPlace f.current (temporaryName name) ∧ t.nodeAt p ≠ some .directory ∧
        next.nodeAt p = some (.file (Utf8.ofString (encode s))) := by
  unfold replace at h
  rw [temporary_eq hlast] at h
  split at h
  · cases h
    exact .inl rfl
  next written hwrite =>
    split at h
    · cases h
      obtain ⟨-, hinsert⟩ := FileTree.insert_of_write hwrite
      obtain ⟨hfree, hnodes⟩ := FileTree.nodeAt_of_insert hinsert
      rw [hnodes]
      by_cases hp : p = f.path.siblingPlace f.current (temporaryName name)
      · rw [if_pos hp, hp]
        exact .inr ⟨rfl, hfree, rfl⟩
      · exact .inl (if_neg hp)
    · cases h

/-- **A failed update leaves nothing but traces**, whatever its path. -/
theorem trace_of_put_eq_error (hlast : f.path.steps.getLast? = some (.down name))
    {patch : StatePatch} {next : FileTree} {e : StoreError}
    (h : f.put t patch = (next, .error e)) (p : Place) :
    next.nodeAt p = t.nodeAt p ∨ f.Trace name patch t next p := by
  unfold put at h
  split at h
  · cases h
    exact .inl rfl
  next s hget =>
    have hmade := t.onlyMade_makeWay f.current f.path.parent p
    rw [FileTree.origin_parent] at hmade
    split at h
    · next made fault hmake =>
        rw [hmake, congrArg Prod.fst h] at hmade
        rcases hmade with hsame | ⟨hway, hbefore, hafter⟩
        · exact .inl hsame
        · exact .inr (.directory hway hbefore hafter)
    · next made hmake =>
        rw [hmake] at hmade
        rcases nodeAt_of_replace_eq_error hlast h p with hsame | ⟨hp, hfree, hafter⟩
        · rw [hsame]
          rcases hmade with hkept | ⟨hway, hbefore, hthere⟩
          · exact .inl hkept
          · exact .inr (.directory hway hbefore (hsame.trans hthere))
        · -- The temporary file is in the place of none of the directories.
          have hkept := hmade.resolve_right fun hnew => hfree hnew.2.2
          rw [hkept] at hfree
          exact .inr (.temporary hget hp hfree hafter)

/-! ## Obstacles -/

/-- The path of a state file runs within a tree: it begins at a directory, goes up only from what
is there, and has no slash or dot behind its last name. -/
structure RunsWithin (f : StateFile) (t : FileTree) : Prop where
  start : t.nodeAt (FileTree.origin f.current f.path) = some .directory
  keeps : t.KeepsTo (FileTree.origin f.current f.path) f.path.parent.steps
  file : f.path.toDirectory = false

/-- What an update may fail at, and the error that it then gives. -/
inductive Obstacle (f : StateFile) (name : String) (t : FileTree) : StoreError → Prop
  /-- A file stands where the path needs a directory. -/
  | fileOnTheWay {p : Place} {bytes : List UInt8}
      (hp : p ∈ FileTree.entered (FileTree.origin f.current f.path) f.path.parent.steps)
      (hfile : t.nodeAt p = some (.file bytes)) : Obstacle f name t .io
  /-- There is a directory in the place of the state. -/
  | directory (hnode : t.nodeAt (f.path.siblingPlace f.current name) = some .directory) :
      Obstacle f name t .io
  /-- There is a directory in the place of the temporary file. -/
  | temporaryDirectory
      (hnode : t.nodeAt (f.path.siblingPlace f.current (temporaryName name)) = some .directory) :
      Obstacle f name t .io
  /-- What is stored is no text. -/
  | notText {bytes : List UInt8}
      (hfile : t.nodeAt (f.path.siblingPlace f.current name) = some (.file bytes))
      (hbytes : Utf8.decodeStrict bytes = none) : Obstacle f name t .io
  /-- The text that is stored stands for no state. -/
  | notState {bytes : List UInt8} {text : String}
      (hfile : t.nodeAt (f.path.siblingPlace f.current name) = some (.file bytes))
      (hbytes : Utf8.decodeStrict bytes = some text)
      (htext : (Json.read text).bind StoredState.ofJson? = none) : Obstacle f name t .corrupt

theorem get_of_walk_eq_error (hlast : f.path.steps.getLast? = some (.down name))
    (hstart : t.nodeAt (FileTree.origin f.current f.path) = some .directory) {fault : FileFault}
    (hwalk : t.walk (FileTree.origin f.current f.path) (f.path.parent.steps ++ [.down name]) =
      .error fault) :
    f.get t = if fault = .notFound then .ok {} else .error .io := by
  have hread : t.read f.current f.path = .error fault := by
    have hlocate : t.locate f.current (f.path.sibling name) = .error fault :=
      (FileTree.locate_of_start (p := f.path.sibling name) hstart).trans hwalk
    rw [FileTree.read, FileTree.locate_last hlast, hlocate]
    rfl
  rw [get, hread]
  cases fault <;> rfl

theorem read_eq_of_isOpenTo (hlast : f.path.steps.getLast? = some (.down name))
    (hfile : f.path.toDirectory = false) (hopen : t.IsOpenTo f.current f.path) :
    t.read f.current f.path =
      match t.nodeAt (f.path.siblingPlace f.current name) with
      | none => .error .notFound
      | some .directory => .error .isDirectory
      | some (.file bytes) => .ok bytes := by
  simp only [FileTree.read, FileTree.locate_last hlast, FileTree.locate_sibling hopen, bind,
    Except.bind, hfile]
  rfl

/-- On a way through directories the state is read unless its file or what it holds is an
obstacle, and then there is no directory in its place. -/
theorem get_of_isOpenTo (hlast : f.path.steps.getLast? = some (.down name))
    (hfile : f.path.toDirectory = false) (hopen : t.IsOpenTo f.current f.path) :
    (∃ e, f.get t = .error e ∧ f.Obstacle name t e) ∨
      (∃ s, f.get t = .ok s) ∧
        t.nodeAt (f.path.siblingPlace f.current name) ≠ some .directory := by
  have hread := read_eq_of_isOpenTo hlast hfile hopen
  cases hnode : t.nodeAt (f.path.siblingPlace f.current name) with
  | none =>
      rw [hnode] at hread
      exact .inr ⟨⟨{}, by rw [get, hread]⟩, by simp⟩
  | some node =>
      rw [hnode] at hread
      cases node with
      | directory => exact .inl ⟨.io, by rw [get, hread], .directory hnode⟩
      | file bytes =>
          cases hbytes : Utf8.decodeStrict bytes with
          | none => exact .inl ⟨.io, by simp [get, hread, hbytes], .notText hnode hbytes⟩
          | some text =>
              have hget : f.get t = decode text := by simp [get, hread, hbytes]
              cases htext : (Json.read text).bind StoredState.ofJson? with
              | none =>
                  refine .inl ⟨.corrupt, ?_, .notState hnode hbytes htext⟩
                  rw [hget, decode, htext]
              | some s => exact .inr ⟨⟨s, by rw [hget, decode, htext]⟩, by simp⟩

/-- **Room or an obstacle.** On a path within a tree an update finds room and a state to read, or
it fails before it has changed anything. -/
theorem room_or_obstacle (hlast : f.path.steps.getLast? = some (.down name))
    (hpath : f.RunsWithin t) :
    ((∃ s, f.get t = .ok s) ∧ f.LeadsToFile name ∧ f.HasRoom name t) ∨
      ∃ e, f.Obstacle name t e ∧ ∀ patch, f.put t patch = (t, .error e) := by
  rcases hpath.keeps.cases hpath.start with hway | hblocked | hnew
  · have hopen : t.IsOpenTo f.current f.path := ⟨hpath.start, hway⟩
    rcases get_of_isOpenTo hlast hpath.file hopen with ⟨e, hget, hobstacle⟩ | ⟨⟨s, hget⟩, hfree⟩
    · exact .inr ⟨e, hobstacle, fun patch => by rw [put, hget]⟩
    · -- No directory has to be made, so the temporary file is the first change.
      have hmake : t.makeWay f.current f.path.parent = (t, none) :=
        (FileTree.makeWay_of_start (p := f.path.parent) hpath.start).trans
          (FileTree.makeDirectories_of_isOpen hway)
      by_cases htemporary :
          t.nodeAt (f.path.siblingPlace f.current (temporaryName name)) = some .directory
      · refine .inr ⟨.io, .temporaryDirectory htemporary, fun patch => ?_⟩
        simp only [put, hget, hmake, replace, temporary_eq hlast,
          FileTree.write_sibling_of_directory hopen htemporary]
      · refine .inl ⟨⟨s, hget⟩, ⟨hlast, hpath.file, ?_, ?_⟩, hpath.start, hway.isClear, hfree,
          htemporary⟩
        · exact fun hp => hfree (hway _ hp)
        · exact fun hp => htemporary (hway _ hp)
  · obtain ⟨p, hp, bytes, hfile⟩ := hblocked.file
    have hget := get_of_walk_eq_error hlast hpath.start (hblocked.walk name)
    rw [if_neg (by decide)] at hget
    exact .inr ⟨.io, .fileOnTheWay hp hfile, fun patch => by rw [put, hget]⟩
  · have hget := get_of_walk_eq_error hlast hpath.start (hnew.walk name)
    rw [if_pos rfl] at hget
    have hmissing : ∀ other, t.nodeAt (f.path.siblingPlace f.current other) = none := hnew.missing
    refine .inl ⟨⟨{}, hget⟩, ⟨hlast, hpath.file, hnew.aside _, hnew.aside _⟩, hpath.start,
      hnew.clear, ?_, ?_⟩
    · simp [hmissing]
    · simp [hmissing]

/-- A file whose state has been read is the one in the place of the state. -/
theorem read_of_file (hlast : f.path.steps.getLast? = some (.down name))
    (hpath : f.RunsWithin t) {s : StoredState} (hget : f.get t = .ok s) {bytes : List UInt8}
    (hfile : t.nodeAt (f.path.siblingPlace f.current name) = some (.file bytes)) :
    t.read f.current f.path = .ok bytes := by
  rcases hpath.keeps.cases hpath.start with hway | hblocked | hnew
  · rw [read_eq_of_isOpenTo hlast hpath.file ⟨hpath.start, hway⟩, hfile]
  · have hstopped := get_of_walk_eq_error hlast hpath.start (hblocked.walk name)
    rw [if_neg (by decide), hget] at hstopped
    cases hstopped
  · have hmissing : t.nodeAt (f.path.siblingPlace f.current name) = none := hnew.missing name
    rw [hmissing] at hfile
    cases hfile

/-- An update that succeeds has met no obstacle. -/
theorem not_obstacle_of_put_eq_ok (hlast : f.path.steps.getLast? = some (.down name))
    (hpath : f.RunsWithin t) {patch : StatePatch} {next : FileTree}
    (h : f.put t patch = (next, .ok ())) (e : StoreError) : ¬ f.Obstacle name t e := by
  obtain ⟨s, hget, -, hroom⟩ := room_of_put_eq_ok hlast h
  have hread : ∀ bytes, t.nodeAt (f.path.siblingPlace f.current name) = some (.file bytes) →
      t.read f.current f.path = .ok bytes := fun _ => read_of_file hlast hpath hget
  intro hobstacle
  cases hobstacle with
  | fileOnTheWay hp hfile => exact hroom.clear _ hp _ hfile
  | directory hnode => exact hroom.free hnode
  | temporaryDirectory hnode => exact hroom.temporaryFree hnode
  | notText hfile hbytes => simp [get, hread _ hfile, hbytes] at hget
  | notState hfile hbytes htext => simp [get, hread _ hfile, hbytes, decode, htext] at hget

/-- **An update is done as a whole or not at all.** When it succeeds, the state file holds the state
that was read with the patch applied as it is read, the temporary file is gone, and only missing
directories on the way have been made besides. When it fails it leaves nothing but traces. On a path
within a tree it leaves not even these, and fails exactly when it meets an obstacle. -/
theorem put_all_or_nothing (hlast : f.path.steps.getLast? = some (.down name))
    (patch : StatePatch) :
    (∀ next, f.put t patch = (next, .ok ()) →
      ∃ s, f.get t = .ok s ∧ f.get next = .ok (s.apply patch.asRead) ∧
        ((∀ time ∈ patch.timestamps, time.LeapEndsMinute) → f.get next = .ok (s.apply patch)) ∧
        f.Replaces name (s.apply patch) t next) ∧
    (∀ next e, f.put t patch = (next, .error e) →
      ∀ p, next.nodeAt p = t.nodeAt p ∨ f.Trace name patch t next p) ∧
    (f.RunsWithin t →
      (∀ next e, f.put t patch = (next, .error e) → next = t ∧ f.Obstacle name t e) ∧
      ∀ e, f.Obstacle name t e → ∃ failure, f.put t patch = (t, .error failure)) := by
  refine ⟨?_, fun next e hput => trace_of_put_eq_error hlast hput, ?_⟩
  · intro next hput
    obtain ⟨s, hget, hpath, hroom⟩ := room_of_put_eq_ok hlast hput
    obtain ⟨again, hagain, hreplaces⟩ := put_of_get hpath hroom hget patch
    obtain rfl : next = again := congrArg Prod.fst (hput.symm.trans hagain)
    have hnext : f.get next = .ok (s.apply patch.asRead) := by
      rw [hreplaces.holds.get hpath, asRead_apply_of_get hget]
    refine ⟨s, hget, hnext, fun hleap => ?_, hreplaces⟩
    rw [hnext, StatePatch.asRead_eq_self_iff.mpr hleap]
  · intro hpath
    rcases room_or_obstacle hlast hpath with ⟨⟨s, hget⟩, hleads, hroom⟩ | ⟨found, hobstacle, hfails⟩
    · obtain ⟨done, hdone, -⟩ := put_of_get hleads hroom hget patch
      constructor
      · intro next e hput
        rw [hdone] at hput
        cases hput
      · intro e hobstacle
        exact absurd hobstacle (not_obstacle_of_put_eq_ok hlast hpath hdone e)
    · constructor
      · intro next e hput
        rw [hfails] at hput
        cases hput
        exact ⟨rfl, hobstacle⟩
      · intro _ _
        exact ⟨found, hfails patch⟩

/-- A path goes through a directory and up again to its file, which is not there yet. The update
succeeds, unless there is a directory in the place of the temporary file. -/
theorem put_all_or_nothing_upward :
    let f : StateFile := ⟨[], .ofText "data/../x.json"⟩
    let free : FileTree := { entries := [(["data"], .directory)] }
    let taken : FileTree :=
      { entries := [(["data"], .directory), (["x.json.tmp"], .directory)] }
    (∃ next, f.put free (.ofFilterCount 4) = (next, .ok ()) ∧
      f.get next = .ok { filterCount := 4 }) ∧
    ∃ e, f.put taken (.ofFilterCount 4) = (taken, .error e) := by
  intro f free taken
  have hlast : f.path.steps.getLast? = some (.down "x.json") := by decide
  have hdata : ∀ t : FileTree, t.nodeAt ["data"] ≠ none → f.RunsWithin t :=
    fun t h => ⟨rfl, ⟨h, trivial⟩, by decide⟩
  constructor
  · have hput : f.put free (.ofFilterCount 4) = ((f.put free (.ofFilterCount 4)).1, .ok ()) := by
      decide +kernel
    obtain ⟨s, hget, -, hnext, -⟩ := (put_all_or_nothing hlast (.ofFilterCount 4)).1 _ hput
    obtain rfl : s = {} := Except.ok.inj (hget.symm.trans (by decide +kernel))
    exact ⟨_, hput, hnext (by decide)⟩
  · refine ((put_all_or_nothing hlast (.ofFilterCount 4)).2.2 (hdata _ (by decide))).2 .io ?_
    exact .temporaryDirectory (by decide)

/-- A path that goes up again out of a directory that is missing has it made, and the update may
fail then. One with a slash behind its last name leaves the temporary file. And an update that
succeeds with a leap second in the middle of a minute leaves the second that comes next. -/
theorem put_leaves_traces :
    let upward : StateFile := ⟨[], .ofText "a/../x.json"⟩
    let taken : FileTree := { entries := [(["x.json.tmp"], .directory)] }
    let slashed : StateFile := ⟨[], .ofText "x.json/"⟩
    let plain : StateFile := ⟨[], .ofText "x.json"⟩
    let patch : StatePatch := { selections := some [.sinceLeap] }
    (upward.path.steps.getLast? = some (.down "x.json") ∧ upward.path.toDirectory = false ∧
      ∃ next, upward.put taken (.ofFilterCount 4) = (next, .error .io) ∧
        taken.nodeAt ["a"] = none ∧ next.nodeAt ["a"] = some .directory) ∧
    (slashed.path.steps.getLast? = some (.down "x.json") ∧
      ∃ next, slashed.put {} (.ofFilterCount 4) = (next, .error .io) ∧
        next.nodeAt ["x.json.tmp"] ≠ none) ∧
    plain.path.steps.getLast? = some (.down "x.json") ∧
      ∃ next, plain.put {} patch = (next, .ok ()) ∧ plain.get {} = .ok {} ∧
        plain.get next ≠ .ok (StoredState.apply {} patch) := by
  intro upward taken slashed plain patch
  refine ⟨⟨by decide, by decide, (upward.put taken (.ofFilterCount 4)).1, ?_, rfl, ?_⟩,
    ⟨by decide, (slashed.put {} (.ofFilterCount 4)).1, ?_, ?_⟩, by decide, ?_⟩
  · exact Prod.ext rfl (by decide +kernel)
  · decide +kernel
  · exact Prod.ext rfl (by decide +kernel)
  · decide +kernel
  · have hpath : plain.LeadsToFile "x.json" := ⟨by decide, by decide, by decide, by decide⟩
    have hget : plain.get {} = .ok {} := rfl
    obtain ⟨next, hput, hnext⟩ := put_of_get hpath (hasRoom_empty _ _) hget patch
    refine ⟨next, hput, hget, ?_⟩
    rw [hnext.holds.get hpath]
    intro hsame
    exact absurd (Except.ok.inj hsame) (by decide)

end StateFile

end InstanceConsole

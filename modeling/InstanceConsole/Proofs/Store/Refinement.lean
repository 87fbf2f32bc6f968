import InstanceConsole.Proofs.Store.FileTree
import InstanceConsole.Proofs.Store.StateDocument

/-!
# The state file as a store

Seen from a console, a state file is the state itself: whatever updates and reads it is asked for,
it answers as a store does that keeps the state in memory, also after it was closed and opened
again. The file begins with no file at all, which stands for the default state, and every update
writes a whole document anew from the one that it reads.

What a file cannot keep is a leap second in the middle of a minute: its document says that it is the
second which comes next. So a file answers as memory does to the same updates with their timestamps
as they are read.
-/

set_option autoImplicit false

namespace InstanceConsole

/-! ## Stores -/

/-- What a console asks of a store. -/
inductive StoreRequest
  | put (patch : StatePatch)
  | get
  /-- Another store is opened in the same place. -/
  | reopen
  deriving DecidableEq, Repr

namespace StoreRequest

/-- The timestamps in a request. -/
def timestamps : StoreRequest → List Timestamp
  | put patch => patch.timestamps
  | get => []
  | reopen => []

/-- A request with its timestamps as they are read. -/
def asRead : StoreRequest → StoreRequest
  | put patch => put patch.asRead
  | get => get
  | reopen => reopen

theorem asRead_eq_self_iff {r : StoreRequest} :
    r.asRead = r ↔ ∀ t ∈ r.timestamps, t.LeapEndsMinute := by
  cases r with
  | put patch => simp [asRead, timestamps, StatePatch.asRead_eq_self_iff]
  | get => simp [asRead, timestamps]
  | reopen => simp [asRead, timestamps]

end StoreRequest

inductive StoreAnswer
  | written (result : Except StoreError Unit)
  | found (result : Except StoreError StoredState)
  | opened

/-- The answer of a state file, and the tree after it. An open file keeps nothing but its path. -/
def StateFile.serve (f : StateFile) (t : FileTree) : StoreRequest → FileTree × StoreAnswer
  | .put patch => ((f.put t patch).1, .written (f.put t patch).2)
  | .get => (t, .found (f.get t))
  | .reopen => (t, .opened)

/-- The answers of a state file to one request after the other. -/
def StateFile.answers (f : StateFile) (t : FileTree) : List StoreRequest → List StoreAnswer
  | [] => []
  | request :: requests => (f.serve t request).2 :: f.answers (f.serve t request).1 requests

/-- The answer of a store that keeps the state in memory, and the state after it. -/
def StoredState.serve (s : StoredState) : StoreRequest → StoredState × StoreAnswer
  | .put patch => (s.apply patch, .written (.ok ()))
  | .get => (s, .found (.ok s))
  | .reopen => (s, .opened)

/-- The answers of a store in memory to one request after the other. -/
def StoredState.answers (s : StoredState) : List StoreRequest → List StoreAnswer
  | [] => []
  | request :: requests => (s.serve request).2 :: (s.serve request).1.answers requests

/-! ## The file that updates are written to first -/

theorem Path.stem_append (cs : List Char) :
    stem (cs ++ '.' :: "json.tmp".toList) = cs ++ ".json".toList := by
  have hreverse : (cs ++ '.' :: "json.tmp".toList).reverse =
      "pmt".toList ++ '.' :: ("nosj.".toList ++ cs.reverse) := by simp
  have hdrop : ("pmt".toList ++ '.' :: ("nosj.".toList ++ cs.reverse)).dropWhile (· ≠ '.') =
      '.' :: ("nosj.".toList ++ cs.reverse) := rfl
  rw [stem, hreverse, hdrop]
  simp

namespace StateFile

/-- The name of the temporary file for a file. -/
def temporaryName (name : String) : String :=
  String.ofList (Path.stem name.toList ++ '.' :: "json.tmp".toList)

/-- The temporary file is another one: it has a longer stem. -/
theorem temporaryName_ne (name : String) : temporaryName name ≠ name := by
  intro h
  have hchars : Path.stem name.toList ++ '.' :: "json.tmp".toList = name.toList := by
    have := congrArg String.toList h
    rwa [temporaryName, String.toList_ofList] at this
  have hstem : Path.stem name.toList ++ ".json".toList = Path.stem name.toList := by
    rw [← Path.stem_append, hchars]
  simp at hstem

/-- The path of a state file leads to a file: it ends in a name, and does not go through the
places of that file and of its temporary file on the way. -/
structure LeadsToFile (f : StateFile) (name : String) : Prop where
  last : f.path.steps.getLast? = some (.down name)
  file : f.path.toDirectory = false
  aside : f.path.siblingPlace f.current name ∉
    FileTree.entered (FileTree.origin f.current f.path) f.path.parent.steps
  temporaryAside : f.path.siblingPlace f.current (temporaryName name) ∉
    FileTree.entered (FileTree.origin f.current f.path) f.path.parent.steps

variable {f : StateFile} {name : String}

theorem LeadsToFile.path_eq (h : f.LeadsToFile name) : f.path.sibling name = f.path :=
  Path.sibling_self h.last h.file

theorem temporary_eq (hlast : f.path.steps.getLast? = some (.down name)) :
    f.temporary = f.path.sibling (temporaryName name) := by
  rw [temporary, Path.withExtension, hlast]
  rfl

/-- The two files have different places. -/
theorem siblingPlace_ne_temporary (f : StateFile) (name : String) :
    f.path.siblingPlace f.current name ≠
      f.path.siblingPlace f.current (temporaryName name) := fun heq =>
  temporaryName_ne name (Path.siblingPlace_inj.mp heq).symm

/-! ## A file that holds a state -/

/-- What a state file needs around it: a directory that its path begins at, no file where the path
needs a directory, and no directory in its own place or in that of its temporary file. -/
structure HasRoom (f : StateFile) (name : String) (t : FileTree) : Prop where
  start : t.nodeAt (FileTree.origin f.current f.path) = some .directory
  clear : t.IsClear (FileTree.origin f.current f.path) f.path.parent.steps
  free : t.nodeAt (f.path.siblingPlace f.current name) ≠ some .directory
  temporaryFree :
    t.nodeAt (f.path.siblingPlace f.current (temporaryName name)) ≠ some .directory

theorem hasRoom_empty (path : Path) (name : String) : HasRoom ⟨[], path⟩ name {} where
  start := by simp [FileTree.origin, FileTree.nodeAt_root]
  clear place _ bytes := FileTree.nodeAt_empty_ne_file place bytes
  free := by simp [FileTree.nodeAt_empty (path.siblingPlace_ne_nil _ _)]
  temporaryFree := by simp [FileTree.nodeAt_empty (path.siblingPlace_ne_nil _ _)]

/-- A state file holds a state: as a document that is read as it, or the default state when it is
missing. -/
def Holds (f : StateFile) (name : String) (t : FileTree) (s : StoredState) : Prop :=
  t.read f.current f.path = .error .notFound ∧ s = {} ∨
    t.IsOpenTo f.current f.path ∧ ∃ written : StoredState, written.asRead = s ∧
      t.nodeAt (f.path.siblingPlace f.current name) = some (.file (Utf8.ofString (encode written)))

theorem Holds.get (hpath : f.LeadsToFile name) {t : FileTree} {s : StoredState}
    (h : f.Holds name t s) : f.get t = .ok s := by
  rcases h with ⟨hmissing, rfl⟩ | ⟨hopen, written, rfl, hfile⟩
  · rw [StateFile.get, hmissing]
  · have hread := FileTree.read_sibling hopen hfile
    rw [hpath.path_eq] at hread
    simp only [StateFile.get, hread, Utf8.decodeStrict_ofString, decode_encode]

/-! ## One update -/

/-- A state takes the place of another in its file: its document is there and the temporary file is
not. Of all else only directories on the way may have changed, which are there now. -/
structure Replaces (f : StateFile) (name : String) (s : StoredState) (before after : FileTree) :
    Prop where
  document : after.nodeAt (f.path.siblingPlace f.current name) =
    some (.file (Utf8.ofString (encode s)))
  temporary : after.nodeAt (f.path.siblingPlace f.current (temporaryName name)) = none
  way : after.IsOpenTo f.current f.path
  made : ∀ p ∈ FileTree.entered (FileTree.origin f.current f.path) f.path.parent.steps,
    before.nodeAt p = none ∨ before.nodeAt p = some .directory
  others : ∀ p, p ≠ f.path.siblingPlace f.current name →
    p ≠ f.path.siblingPlace f.current (temporaryName name) →
    p ∉ FileTree.entered (FileTree.origin f.current f.path) f.path.parent.steps →
    after.nodeAt p = before.nodeAt p

theorem Replaces.hasRoom {s : StoredState} {before after : FileTree}
    (h : f.Replaces name s before after) : f.HasRoom name after where
  start := h.way.start
  clear := h.way.way.isClear
  free := by simp [h.document]
  temporaryFree := by simp [h.temporary]

theorem Replaces.holds {s : StoredState} {before after : FileTree}
    (h : f.Replaces name s before after) : f.Holds name after s.asRead :=
  .inr ⟨h.way, s, rfl, h.document⟩

/-- **Replacing the state leaves its document in place.** The document is written to the temporary
file, which is then gone again, and no other place is touched. -/
theorem replace_of_isOpenTo (hpath : f.LeadsToFile name) {t : FileTree} (hroom : f.HasRoom name t)
    (hopen : t.IsOpenTo f.current f.path) (s : StoredState) :
    ∃ moved, f.replace t s = (moved, .ok ()) ∧ f.Replaces name s t moved := by
  obtain ⟨written, moved, hwrite, hrename, hnodes⟩ :=
    FileTree.write_rename_sibling hopen (temporaryName_ne name) (Utf8.ofString (encode s))
      hroom.temporaryFree hroom.free
  -- The two files take the place of no directory.
  have hkept : ∀ p, t.nodeAt p = some .directory → moved.nodeAt p = some .directory := by
    intro p hp
    have hstate : p ≠ f.path.siblingPlace f.current name := fun heq => hroom.free (heq ▸ hp)
    have htemporary : p ≠ f.path.siblingPlace f.current (temporaryName name) := fun heq =>
      hroom.temporaryFree (heq ▸ hp)
    rw [hnodes, if_neg hstate, if_neg htemporary, hp]
  refine ⟨moved, ?_, ?_, ?_, ⟨hkept _ hopen.start, fun p hp => hkept p (hopen.way p hp)⟩,
    fun p hp => .inr (hopen.way p hp), ?_⟩
  · rw [hpath.path_eq] at hrename
    simp only [replace, temporary_eq hpath.last, hwrite, hrename]
  · rw [hnodes, if_pos rfl]
  · rw [hnodes, if_neg (f.siblingPlace_ne_temporary name).symm, if_pos rfl]
  · intro p hstate htemporary _
    rw [hnodes, if_neg hstate, if_neg htemporary]

/-- **One update.** Where there is room it succeeds, and the updated state replaces the one that
was read. -/
theorem put_of_get (hpath : f.LeadsToFile name) {t : FileTree} {s : StoredState}
    (hroom : f.HasRoom name t) (hget : f.get t = .ok s) (patch : StatePatch) :
    ∃ next, f.put t patch = (next, .ok ()) ∧ f.Replaces name (s.apply patch) t next := by
  obtain ⟨made, hmake, hmade⟩ := FileTree.makeDirectories_of_isClear hroom.start hroom.clear
  have hway : t.makeWay f.current f.path.parent = (made, none) :=
    (FileTree.makeWay_of_start (p := f.path.parent) hroom.start).trans hmake
  have hopen : made.IsOpenTo f.current f.path := by
    refine ⟨?_, fun p hp => by rw [hmade, if_pos hp]⟩
    rw [hmade, hroom.start, ite_self]
  have hmadeRoom : f.HasRoom name made := by
    refine ⟨hopen.start, hopen.way.isClear, ?_, ?_⟩
    · rw [hmade, if_neg hpath.aside]
      exact hroom.free
    · rw [hmade, if_neg hpath.temporaryAside]
      exact hroom.temporaryFree
  obtain ⟨moved, hreplace, hmoved⟩ := replace_of_isOpenTo hpath hmadeRoom hopen (s.apply patch)
  refine ⟨moved, ?_, hmoved.document, hmoved.temporary, hmoved.way, ?_, ?_⟩
  · simp only [StateFile.put, hget, hway]
    exact hreplace
  · intro p hp
    cases hnode : t.nodeAt p with
    | none => exact .inl rfl
    | some node =>
        cases node with
        | file bytes => exact absurd hnode (hroom.clear p hp bytes)
        | directory => exact .inr rfl
  · intro p hstate htemporary hway
    rw [hmoved.others p hstate htemporary hway, hmade, if_neg hway]

/-- One request: the same answer as from memory to what is read of it, and the file goes on holding
the same state. -/
theorem Holds.serve (hpath : f.LeadsToFile name) {t : FileTree} {s : StoredState}
    (hroom : f.HasRoom name t) (h : f.Holds name t s) (request : StoreRequest) :
    (f.serve t request).2 = (s.serve request.asRead).2 ∧ f.HasRoom name (f.serve t request).1 ∧
      f.Holds name (f.serve t request).1 (s.serve request.asRead).1 := by
  cases request with
  | put patch =>
      have hget := h.get hpath
      obtain ⟨next, hput, hnext⟩ := put_of_get hpath hroom hget patch
      have hholds := hnext.holds
      rw [asRead_apply_of_get hget] at hholds
      rw [StateFile.serve, hput]
      exact ⟨rfl, hnext.hasRoom, hholds⟩
  | get => exact ⟨congrArg (StoreAnswer.found ·) (h.get hpath), hroom, h⟩
  | reopen => exact ⟨rfl, hroom, h⟩

theorem Holds.answers (hpath : f.LeadsToFile name) {t : FileTree} {s : StoredState}
    (hroom : f.HasRoom name t) (h : f.Holds name t s) (requests : List StoreRequest) :
    f.answers t requests = s.answers (requests.map StoreRequest.asRead) := by
  induction requests generalizing t s with
  | nil => rfl
  | cons request requests ih =>
      obtain ⟨hanswer, hnextRoom, hnext⟩ := h.serve hpath hroom request
      rw [StateFile.answers, List.map_cons, StoredState.answers, hanswer, ih hnextRoom hnext]

/-- **A state file answers as a store in memory**, from a missing file and the default state on:
every update succeeds, and every read finds what the updates so far come to. Leap seconds count as
they are read, so the same updates give the same answers when all leap seconds in them end
minutes. -/
theorem answers_eq_memory (hpath : f.LeadsToFile name) {t : FileTree} (hroom : f.HasRoom name t)
    (hmissing : t.read f.current f.path = .error .notFound) (requests : List StoreRequest) :
    f.answers t requests = StoredState.answers {} (requests.map StoreRequest.asRead) ∧
    ((∀ request ∈ requests, ∀ t ∈ request.timestamps, t.LeapEndsMinute) →
      f.answers t requests = StoredState.answers {} requests) := by
  have hanswers := Holds.answers hpath hroom (.inl ⟨hmissing, rfl⟩) requests
  refine ⟨hanswers, fun hleap => ?_⟩
  have hsame : requests.map StoreRequest.asRead = requests := by
    rw [map_eq_self_iff_of_forall @StoreRequest.asRead_eq_self_iff]
    simpa only [List.forall_mem_flatMap] using hleap
  rw [hanswers, hsame]

/-- A file in a directory that is still to be made. -/
theorem answers_nested :
    StateFile.answers ⟨[], .ofText "nested/instances.json"⟩ {}
        [.get, .put (.ofFilterCount 17), .reopen, .put { running := some 3 }, .get] =
      [.found (.ok {}), .written (.ok ()), .opened, .written (.ok ()),
        .found (.ok { filterCount := 17, running := 3 })] := by
  have hpath : StateFile.LeadsToFile ⟨[], .ofText "nested/instances.json"⟩ "instances.json" :=
    ⟨by decide, by decide, by decide, by decide⟩
  exact (answers_eq_memory hpath (hasRoom_empty _ _) rfl _).2 (by decide)

/-- Where a state file answers otherwise than memory. A path that goes through the place of its own
file makes a directory there, and then no file can be moved to it. A leap second in the middle of a
minute is found as the second that comes next. -/
theorem answers_ne_memory :
    let own : StateFile := ⟨[], .ofText "x.json/../x.json"⟩
    let plain : StateFile := ⟨[], .ofText "x.json"⟩
    let patch : StatePatch := { selections := some [.sinceLeap] }
    (own.path.steps.getLast? = some (.down "x.json") ∧ own.path.toDirectory = false ∧
      own.HasRoom "x.json" {} ∧ FileTree.read {} own.current own.path = .error .notFound ∧
      own.answers {} [.put (.ofFilterCount 4)] ≠
        StoredState.answers {} [.put (.ofFilterCount 4)]) ∧
    plain.LeadsToFile "x.json" ∧ plain.HasRoom "x.json" {} ∧
      FileTree.read {} plain.current plain.path = .error .notFound ∧
      plain.answers {} [.put patch, .get] ≠ StoredState.answers {} [.put patch, .get] := by
  intro own plain patch
  have hpath : plain.LeadsToFile "x.json" := ⟨by decide, by decide, by decide, by decide⟩
  have hroom : plain.HasRoom "x.json" {} := hasRoom_empty _ _
  refine ⟨⟨by decide, by decide, hasRoom_empty _ _, rfl, ?_⟩, hpath, hroom, rfl, ?_⟩
  · have hput : (own.put {} (.ofFilterCount 4)).2 = .error .io := by decide +kernel
    intro h
    rw [answers, serve, hput] at h
    simp [StoredState.answers, StoredState.serve] at h
  · rw [Holds.answers hpath hroom (.inl ⟨rfl, rfl⟩)]
    intro h
    have hfound : StoredState.apply {} patch.asRead = StoredState.apply {} patch := by
      simpa [StoredState.answers, StoredState.serve, StoreRequest.asRead] using h
    exact absurd hfound (by decide)

end StateFile

end InstanceConsole

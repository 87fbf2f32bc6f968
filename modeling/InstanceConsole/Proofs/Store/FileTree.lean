import Mathlib.Data.List.Basic
import InstanceConsole.Proofs.Basic
import InstanceConsole.Store.FileTree

/-!
# Looking up and changing a file tree

What is where after a change, and which places a path leads through. A path to a file is found
when every directory on the way is there, and making the directories of a path puts them there
and leaves every other place as it was.
-/

set_option autoImplicit false

namespace InstanceConsole

namespace FileTree

variable {t next : FileTree} {place : Place}

/-! ## What is at a place -/

/-- The root is a directory. -/
theorem nodeAt_root (t : FileTree) : t.nodeAt [] = some .directory := rfl

/-- Below the root of an empty tree there is nothing. -/
theorem nodeAt_empty (hplace : place ≠ []) : nodeAt {} place = none := by
  rw [nodeAt, nodeAmong, if_neg hplace, List.lookup_nil]

theorem nodeAt_empty_ne_file (place : Place) (bytes : List UInt8) :
    nodeAt {} place ≠ some (.file bytes) := by
  by_cases hplace : place = []
  · simp [hplace, nodeAt_root]
  · simp [nodeAt_empty hplace]

/-- What is there lies in a directory. -/
theorem nodeAt_dropLast (hplace : t.nodeAt place ≠ none) :
    t.nodeAt place.dropLast = some .directory := by
  by_cases hroot : place = []
  · rw [hroot]
    exact t.nodeAt_root
  · obtain ⟨node, hnode⟩ := Option.ne_none_iff_exists'.mp hplace
    rw [nodeAt, nodeAmong, if_neg hroot] at hnode
    obtain ⟨before, after, hsplit, -⟩ := List.lookup_eq_some_iff.mp hnode
    exact t.isTree (place, node) (by simp [hsplit])

/-- Where there is no directory, nothing lies below. -/
theorem nodeAt_append_eq_none (hplace : t.nodeAt place ≠ some .directory) (name : String) :
    t.nodeAt (place ++ [name]) = none := by
  by_contra hthere
  have habove := nodeAt_dropLast hthere
  rw [List.dropLast_concat] at habove
  exact hplace habove

/-- What is no directory is not the root. -/
theorem ne_nil_of_nodeAt (hplace : t.nodeAt place ≠ some .directory) : place ≠ [] := by
  rintro rfl
  exact hplace t.nodeAt_root

theorem requireDirectory_eq_ok_iff :
    t.requireDirectory place = .ok () ↔ t.nodeAt place = some .directory := by
  unfold requireDirectory
  split
  · next h => simp [h]
  · next h => simp [h]
  · next h => simp [h]

/-! ## Changes at one place -/

theorem nodeAmong_filter_self {entries : List (Place × FileNode)} (hplace : place ≠ []) :
    nodeAmong (entries.filter (·.1 ≠ place)) place = none := by
  rw [nodeAmong, if_neg hplace, List.lookup_eq_none_iff]
  intro entry hentry
  have hne : entry.1 ≠ place := by simpa using (List.mem_filter.mp hentry).2
  simpa using hne.symm

/-- A tree without what was at one place. -/
theorem exists_erase (hplace : t.nodeAt place ≠ some .directory) :
    ∃ next, t.erase place = .ok next ∧
      ∀ other, next.nodeAt other = if other = place then none else t.nodeAt other := by
  refine ⟨_, dif_neg hplace, fun other => ?_⟩
  by_cases hother : other = place
  · rw [if_pos hother, hother]
    exact nodeAmong_filter_self (ne_nil_of_nodeAt hplace)
  · rw [if_neg hother]
    exact nodeAmong_filter_ne hother

/-- A tree with something else at one place. -/
theorem exists_insert (hplace : t.nodeAt place ≠ some .directory)
    (habove : t.nodeAt place.dropLast = some .directory) (node : FileNode) :
    ∃ next, t.insert place node = .ok next ∧
      ∀ other, next.nodeAt other = if other = place then some node else t.nodeAt other := by
  refine ⟨_, (dif_neg hplace).trans (dif_pos habove), fun other => ?_⟩
  by_cases hother : other = place
  · rw [if_pos hother, hother, nodeAt, nodeAmong, if_neg (ne_nil_of_nodeAt hplace)]
    exact List.lookup_cons_self
  · rw [if_neg hother]
    exact (nodeAmong_cons_of_ne node hother).trans (nodeAmong_filter_ne hother)

/-- What is inserted goes where there is no directory, but one above. -/
theorem nodeAt_of_insert {node : FileNode} (h : t.insert place node = .ok next) :
    t.nodeAt place ≠ some .directory ∧
      ∀ other, next.nodeAt other = if other = place then some node else t.nodeAt other := by
  have hplace : t.nodeAt place ≠ some .directory := by
    intro hthere
    rw [insert, dif_pos hthere] at h
    cases h
  have habove : t.nodeAt place.dropLast = some .directory := by
    by_contra hnone
    rw [insert, dif_neg hplace, dif_neg hnone] at h
    split at h <;> cases h
  obtain ⟨again, hagain, hnodes⟩ := exists_insert hplace habove node
  obtain rfl := Except.ok.inj (h.symm.trans hagain)
  exact ⟨hplace, hnodes⟩

/-- A tree with a file at another place than before. -/
theorem exists_move {source target : Place} {old : List UInt8}
    (hsource : t.nodeAt source = some (.file old)) (htarget : t.nodeAt target ≠ some .directory)
    (habove : t.nodeAt target.dropLast = some .directory) (bytes : List UInt8) :
    ∃ next, t.move source target bytes = .ok next ∧
      ∀ other, next.nodeAt other =
        if other = target then some (.file bytes)
        else if other = source then none
        else t.nodeAt other := by
  have hfile : t.nodeAt source ≠ some .directory := by simp [hsource]
  obtain ⟨erased, herase, herased⟩ := exists_erase hfile
  have hfree : erased.nodeAt target ≠ some .directory := by
    rw [herased]
    split
    · simp
    · exact htarget
  have hkept : erased.nodeAt target.dropLast = some .directory := by
    have hne : target.dropLast ≠ source := by
      rintro rfl
      rw [habove] at hsource
      cases hsource
    rw [herased, if_neg hne, habove]
  obtain ⟨next, hinsert, hnodes⟩ := exists_insert hfree hkept (.file bytes)
  refine ⟨next, ?_, fun other => by rw [hnodes, herased]⟩
  rw [move, herase]
  exact hinsert

/-! ## The way to a place -/

/-- The place that steps lead to when every directory on the way is there. -/
def reached (place : Place) : List PathStep → Place
  | [] => place
  | .up :: steps => reached place.dropLast steps
  | .down name :: steps => reached (place ++ [name]) steps

/-- The places that steps go down to on the way. -/
def entered (place : Place) : List PathStep → List Place
  | [] => []
  | .up :: steps => entered place.dropLast steps
  | .down name :: steps => (place ++ [name]) :: entered (place ++ [name]) steps

/-- All directories that steps go through are there. -/
def IsOpen (t : FileTree) (place : Place) (steps : List PathStep) : Prop :=
  ∀ p ∈ entered place steps, t.nodeAt p = some .directory

/-- No file is where steps need a directory. -/
def IsClear (t : FileTree) (place : Place) (steps : List PathStep) : Prop :=
  ∀ p ∈ entered place steps, ∀ bytes, t.nodeAt p ≠ some (.file bytes)

theorem IsOpen.isClear {steps : List PathStep} (h : t.IsOpen place steps) :
    t.IsClear place steps := by
  intro p hp bytes hfile
  rw [h p hp] at hfile
  cases hfile

/-- A step that is not the last one is taken into a directory only. -/
theorem walk_down_of_ne_nil (t : FileTree) (place : Place) (name : String) {steps : List PathStep}
    (h : steps ≠ []) :
    t.walk place (.down name :: steps) =
      (t.requireDirectory (place ++ [name])).bind fun _ => t.walk (place ++ [name]) steps := by
  cases steps with
  | nil => exact absurd rfl h
  | cons step steps => rfl

/-- Steps that lead through directories lead to one. -/
theorem nodeAt_reached {steps : List PathStep} (hplace : t.nodeAt place = some .directory)
    (h : t.IsOpen place steps) : t.nodeAt (reached place steps) = some .directory := by
  induction steps generalizing place with
  | nil => exact hplace
  | cons step steps ih =>
      cases step with
      | up => exact ih (nodeAt_dropLast (by simp [hplace])) h
      | down name =>
          exact ih (h _ (by simp [entered])) fun p hp => h p (by simp [entered, hp])

theorem walk_of_isOpen {steps : List PathStep} (h : t.IsOpen place steps) (name : String) :
    t.walk place (steps ++ [.down name]) = .ok (reached place steps ++ [name]) := by
  induction steps generalizing place with
  | nil => rfl
  | cons step steps ih =>
      cases step with
      | up => exact ih h
      | down directory =>
          have hhere : t.nodeAt (place ++ [directory]) = some .directory := h _ (by simp [entered])
          have hrest : t.IsOpen (place ++ [directory]) steps := fun p hp =>
            h p (by simp [entered, hp])
          rw [List.cons_append, walk_down_of_ne_nil _ _ _ (by simp), requireDirectory, hhere]
          exact ih hrest

/-- Steps to a name are taken only when every directory on the way is there. -/
theorem isOpen_of_walk {steps : List PathStep} {name : String} {other : Place}
    (h : t.walk place (steps ++ [.down name]) = .ok other) :
    t.IsOpen place steps ∧ other = reached place steps ++ [name] := by
  induction steps generalizing place with
  | nil => exact ⟨by simp [IsOpen, entered], (Except.ok.inj h).symm⟩
  | cons step steps ih =>
      cases step with
      | up => exact ih h
      | down directory =>
          rw [List.cons_append, walk_down_of_ne_nil _ _ _ (by simp)] at h
          obtain ⟨⟨⟩, hhere, hrest⟩ := exists_ok_of_bind_eq_ok h
          obtain ⟨hopen, hother⟩ := ih hrest
          refine ⟨fun p hp => ?_, hother⟩
          rcases List.mem_cons.mp hp with rfl | hp
          · exact requireDirectory_eq_ok_iff.mp hhere
          · exact hopen p hp

/-! ## Making directories -/

/-- The first step down from a directory makes its directory or finds it. -/
theorem makeDirectories_down (hplace : t.nodeAt place = some .directory) {name : String}
    (h : ∀ bytes, t.nodeAt (place ++ [name]) ≠ some (.file bytes)) (steps : List PathStep) :
    ∃ made, t.makeDirectories place (.down name :: steps) =
        makeDirectories made (place ++ [name]) steps ∧
      ∀ p, made.nodeAt p = if p = place ++ [name] then some .directory else t.nodeAt p := by
  rw [makeDirectories]
  cases hhere : t.nodeAt (place ++ [name]) with
  | none =>
      have habove : t.nodeAt (place ++ [name]).dropLast = some .directory := by
        rw [List.dropLast_concat, hplace]
      obtain ⟨made, hinsert, hmade⟩ := exists_insert (by simp [hhere]) habove .directory
      exact ⟨made, by rw [hinsert], hmade⟩
  | some node =>
      cases node with
      | file bytes => exact absurd hhere (h bytes)
      | directory =>
          refine ⟨t, rfl, fun p => ?_⟩
          by_cases hp : p = place ++ [name]
          · rw [if_pos hp, hp, hhere]
          · rw [if_neg hp]

/-- **Making the directories of a path opens it** when no file is in the way, and changes no
other place. -/
theorem makeDirectories_of_isClear {steps : List PathStep}
    (hplace : t.nodeAt place = some .directory) (h : t.IsClear place steps) :
    ∃ made, t.makeDirectories place steps = (made, none) ∧
      ∀ p, made.nodeAt p = if p ∈ entered place steps then some .directory else t.nodeAt p := by
  induction steps generalizing t place with
  | nil => exact ⟨t, rfl, fun p => by simp [entered]⟩
  | cons step steps ih =>
      cases step with
      | up => exact ih (nodeAt_dropLast (by simp [hplace])) h
      | down name =>
          have hname := h (place ++ [name]) (by simp [entered])
          obtain ⟨made, hmake, hmade⟩ := makeDirectories_down hplace hname steps
          have hthere : made.nodeAt (place ++ [name]) = some .directory := by
            rw [hmade, if_pos rfl]
          have hclear : made.IsClear (place ++ [name]) steps := by
            intro p hp bytes hfile
            rw [hmade] at hfile
            by_cases hhere : p = place ++ [name]
            · rw [if_pos hhere] at hfile
              cases hfile
            · rw [if_neg hhere] at hfile
              exact h p (by simp [entered, hp]) bytes hfile
          obtain ⟨rest, hrest, hnodes⟩ := ih hthere hclear
          refine ⟨rest, hmake.trans hrest, fun p => ?_⟩
          rw [hnodes, hmade]
          by_cases hp : p ∈ entered (place ++ [name]) steps
          · simp [entered, hp]
          · by_cases hhere : p = place ++ [name]
            · simp [entered, hhere]
            · simp [entered, hp, hhere]

end FileTree

/-! ## Files beside a path -/

namespace Path

/-- The path to a name beside that of the last step. -/
def sibling (p : Path) (name : String) : Path := p.parent.child name

/-- The place of a name beside that of the last step. -/
def siblingPlace (p : Path) (current : Place) (name : String) : Place :=
  FileTree.reached (FileTree.origin current p) p.parent.steps ++ [name]

theorem siblingPlace_ne_nil (p : Path) (current : Place) (name : String) :
    p.siblingPlace current name ≠ [] := by simp [siblingPlace]

theorem siblingPlace_inj {current : Place} {p : Path} {name other : String} :
    p.siblingPlace current name = p.siblingPlace current other ↔ name = other := by
  simp [siblingPlace]

theorem sibling_self {p : Path} {name : String} (hlast : p.steps.getLast? = some (.down name))
    (hfile : p.toDirectory = false) : p.sibling name = p := by
  have hsteps : p.steps.dropLast ++ [.down name] = p.steps :=
    List.dropLast_append_getLast? _ hlast
  rw [sibling, child, parent, hsteps, ← hfile]

end Path

namespace FileTree

variable {t next : FileTree} {current : Place} {p : Path}

/-- A path begins at a directory, and all directories on the way to its last step are there. -/
structure IsOpenTo (t : FileTree) (current : Place) (p : Path) : Prop where
  start : t.nodeAt (origin current p) = some .directory
  way : t.IsOpen (origin current p) p.parent.steps

/-- What lies beside the end of an open path lies in a directory. -/
theorem IsOpenTo.nodeAt_dropLast (h : t.IsOpenTo current p) (name : String) :
    t.nodeAt (p.siblingPlace current name).dropLast = some .directory := by
  rw [Path.siblingPlace, List.dropLast_concat]
  exact nodeAt_reached h.start h.way

theorem locate_of_start (hstart : t.nodeAt (origin current p) = some .directory) :
    t.locate current p = t.walk (origin current p) p.steps := by
  rw [locate, requireDirectory_eq_ok_iff.mpr hstart]
  rfl

theorem origin_parent (current : Place) (p : Path) : origin current p.parent = origin current p :=
  rfl

theorem makeWay_of_start (hstart : t.nodeAt (origin current p) = some .directory) :
    t.makeWay current p = t.makeDirectories (origin current p) p.steps := by
  rw [makeWay, requireDirectory_eq_ok_iff.mpr hstart]

theorem locate_sibling (h : t.IsOpenTo current p) (name : String) :
    t.locate current (p.sibling name) = .ok (p.siblingPlace current name) :=
  (locate_of_start (p := p.sibling name) h.start).trans (walk_of_isOpen h.way name)

/-- What is inserted closes no path, since it takes the place of no directory. -/
theorem IsOpenTo.of_insert (h : t.IsOpenTo current p) {place : Place} {node : FileNode}
    (hinsert : t.insert place node = .ok next) : next.IsOpenTo current p := by
  obtain ⟨hplace, hnodes⟩ := nodeAt_of_insert hinsert
  have hkept : ∀ q, t.nodeAt q = some .directory → next.nodeAt q = some .directory := by
    intro q hq
    have hne : q ≠ place := by
      rintro rfl
      exact hplace hq
    rw [hnodes, if_neg hne, hq]
  exact ⟨hkept _ h.start, fun q hq => hkept q (h.way q hq)⟩

/-- A path that leads beside the end of another is open as that is. -/
theorem isOpenTo_of_locate {name : String} {place : Place}
    (h : t.locate current (p.sibling name) = .ok place) :
    t.IsOpenTo current p ∧ place = p.siblingPlace current name := by
  obtain ⟨⟨⟩, hstart, hwalk⟩ := exists_ok_of_bind_eq_ok h
  obtain ⟨hway, hplace⟩ := isOpen_of_walk hwalk
  exact ⟨⟨requireDirectory_eq_ok_iff.mp hstart, hway⟩, hplace⟩

theorem read_sibling (h : t.IsOpenTo current p) {name : String} {bytes : List UInt8}
    (hfile : t.nodeAt (p.siblingPlace current name) = some (.file bytes)) :
    t.read current (p.sibling name) = .ok bytes := by
  have hlocate := locate_sibling h name
  simp only [read, hlocate, bind, Except.bind, hfile]
  rfl

/-- A file can be written wherever there is no directory. -/
theorem write_sibling (h : t.IsOpenTo current p) {name : String}
    (hfree : t.nodeAt (p.siblingPlace current name) ≠ some .directory) (bytes : List UInt8) :
    t.write current (p.sibling name) bytes =
      t.insert (p.siblingPlace current name) (.file bytes) := by
  have hlocate := locate_sibling h name
  simp only [write, hlocate, bind, Except.bind]
  cases hnode : t.nodeAt (p.siblingPlace current name) with
  | none => rfl
  | some node =>
      cases node with
      | file old => rfl
      | directory => exact absurd hnode hfree

/-- A file can be moved wherever there is no directory. -/
theorem rename_sibling (h : t.IsOpenTo current p) {source target : String} {bytes : List UInt8}
    (hsource : t.nodeAt (p.siblingPlace current source) = some (.file bytes))
    (hfree : t.nodeAt (p.siblingPlace current target) ≠ some .directory) :
    t.rename current (p.sibling source) (p.sibling target) =
      t.move (p.siblingPlace current source) (p.siblingPlace current target) bytes := by
  have hlocate := locate_sibling h
  simp only [rename, hlocate, bind, Except.bind, hsource]
  cases hnode : t.nodeAt (p.siblingPlace current target) with
  | none => rfl
  | some node =>
      cases node with
      | file old => rfl
      | directory => exact absurd hnode hfree

/-- **A file written aside and moved into place**: the one that was written is gone again, and no
third place has changed. -/
theorem write_rename_sibling (h : t.IsOpenTo current p) {source target : String}
    (hne : source ≠ target) (bytes : List UInt8)
    (hsource : t.nodeAt (p.siblingPlace current source) ≠ some .directory)
    (htarget : t.nodeAt (p.siblingPlace current target) ≠ some .directory) :
    ∃ written moved, t.write current (p.sibling source) bytes = .ok written ∧
      written.rename current (p.sibling source) (p.sibling target) = .ok moved ∧
      ∀ q, moved.nodeAt q =
        if q = p.siblingPlace current target then some (.file bytes)
        else if q = p.siblingPlace current source then none
        else t.nodeAt q := by
  obtain ⟨written, hinsert, hwritten⟩ :=
    exists_insert hsource (h.nodeAt_dropLast source) (.file bytes)
  have hopen : written.IsOpenTo current p := h.of_insert hinsert
  have hplaces : p.siblingPlace current target ≠ p.siblingPlace current source := fun heq =>
    hne (Path.siblingPlace_inj.mp heq).symm
  have hthere : written.nodeAt (p.siblingPlace current source) = some (.file bytes) := by
    rw [hwritten, if_pos rfl]
  have hfree : written.nodeAt (p.siblingPlace current target) ≠ some .directory := by
    rw [hwritten, if_neg hplaces]
    exact htarget
  obtain ⟨moved, hmove, hmoved⟩ :=
    exists_move hthere hfree (hopen.nodeAt_dropLast target) bytes
  refine ⟨written, moved, (write_sibling h hsource bytes).trans hinsert,
    (rename_sibling hopen hthere hfree).trans hmove, fun q => ?_⟩
  rw [hmoved, hwritten]
  by_cases hq : q = p.siblingPlace current source
  · simp only [if_pos hq]
  · simp only [if_neg hq]

end FileTree

end InstanceConsole

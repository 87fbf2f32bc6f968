import InstanceConsole.Proofs.Store.FileTree

/-!
# Ways through a file tree

Steps from a directory lead through directories all along, or a file stops them, or they lead to
a place where nothing is yet. There is no fourth case for steps that go up only from what is there:
all that is there lies in a directory, so what lies below a missing directory is missing too. Beside
these cases stand the changes to a tree that fail, each with the tree in which it does.
-/

set_option autoImplicit false

namespace InstanceConsole

namespace FileTree

variable {t : FileTree} {place : Place} {steps : List PathStep}

/-! ## Ways through a tree -/

/-- Steps keep to a tree when they go up only from what is there. -/
def KeepsTo (t : FileTree) (place : Place) : List PathStep → Prop
  | [] => True
  | .up :: steps => t.nodeAt place ≠ none ∧ KeepsTo t place.dropLast steps
  | .down name :: steps => KeepsTo t (place ++ [name]) steps

/-- Steps lead to a new place: nothing is there yet, no file is on the way, and the way does not
pass through any place beside its end. -/
structure LeadsToNew (t : FileTree) (place : Place) (steps : List PathStep) : Prop where
  walk : ∀ name, t.walk place (steps ++ [.down name]) = .error .notFound
  clear : t.IsClear place steps
  missing : ∀ name, t.nodeAt (reached place steps ++ [name]) = none
  aside : ∀ name, reached place steps ++ [name] ∉ entered place steps

/-- A file stands where steps need a directory, and stops them. -/
structure IsBlocked (t : FileTree) (place : Place) (steps : List PathStep) : Prop where
  walk : ∀ name, t.walk place (steps ++ [.down name]) = .error .notDirectory
  file : ∃ p ∈ entered place steps, ∃ bytes, t.nodeAt p = some (.file bytes)

theorem walk_down_append (t : FileTree) (place : Place) (name : String) (steps : List PathStep)
    (last : String) :
    t.walk place (.down name :: steps ++ [.down last]) =
      (t.requireDirectory (place ++ [name])).bind
        fun _ => t.walk (place ++ [name]) (steps ++ [.down last]) :=
  walk_down_of_ne_nil t place name (by simp)

section

variable {name : String} (hname : t.nodeAt (place ++ [name]) = some .directory)

include hname

theorem LeadsToNew.down (hnew : t.LeadsToNew (place ++ [name]) steps) :
    t.LeadsToNew place (.down name :: steps) := by
  refine ⟨fun last => ?_, ?_, hnew.missing, ?_⟩
  · rw [walk_down_append, requireDirectory, hname]
    exact hnew.walk last
  · intro p hp bytes
    rcases List.mem_cons.mp hp with rfl | hp
    · simp [hname]
    · exact hnew.clear p hp bytes
  · intro last hmem
    rcases List.mem_cons.mp hmem with heq | hmem
    · -- The end of the way is missing, and this directory is there.
      have hmissing := hnew.missing last
      rw [reached] at heq
      rw [heq, hname] at hmissing
      cases hmissing
    · exact hnew.aside last hmem

theorem IsBlocked.down (hblocked : t.IsBlocked (place ++ [name]) steps) :
    t.IsBlocked place (.down name :: steps) := by
  obtain ⟨p, hp, hfile⟩ := hblocked.file
  refine ⟨fun last => ?_, p, List.mem_cons_of_mem _ hp, hfile⟩
  rw [walk_down_append, requireDirectory, hname]
  exact hblocked.walk last

theorem IsOpen.down (hopen : t.IsOpen (place ++ [name]) steps) :
    t.IsOpen place (.down name :: steps) := by
  intro p hp
  rcases List.mem_cons.mp hp with rfl | hp
  · exact hname
  · exact hopen p hp

end

/-- From a place that is missing, steps that keep to the tree only go down, and meet nothing. -/
theorem KeepsTo.missing (hmissing : t.nodeAt place = none)
    (hkeeps : t.KeepsTo place steps) :
    t.nodeAt (reached place steps) = none ∧ place.length ≤ (reached place steps).length ∧
      ∀ p ∈ entered place steps, t.nodeAt p = none ∧ p.length ≤ (reached place steps).length := by
  induction steps generalizing place with
  | nil => exact ⟨hmissing, Nat.le_refl _, by simp [entered]⟩
  | cons step steps ih =>
      cases step with
      | up => exact absurd hmissing hkeeps.1
      | down name =>
          have hbelow : t.nodeAt (place ++ [name]) = none :=
            nodeAt_append_eq_none (by simp [hmissing]) name
          obtain ⟨hreached, hlength, hentered⟩ := ih hbelow hkeeps
          have hshorter : place.length ≤ (reached (place ++ [name]) steps).length := by
            rw [List.length_append] at hlength
            omega
          refine ⟨hreached, hshorter, fun p hp => ?_⟩
          rcases List.mem_cons.mp hp with rfl | hp
          · exact ⟨hbelow, hlength⟩
          · exact hentered p hp

theorem KeepsTo.leadsToNew {name : String}
    (hmissing : t.nodeAt (place ++ [name]) = none) (hkeeps : t.KeepsTo (place ++ [name]) steps) :
    t.LeadsToNew place (.down name :: steps) := by
  obtain ⟨hreached, hlength, hentered⟩ := hkeeps.missing hmissing
  have hway : ∀ p ∈ entered place (.down name :: steps), t.nodeAt p = none ∧
      p.length ≤ (reached (place ++ [name]) steps).length := by
    intro p hp
    rcases List.mem_cons.mp hp with rfl | hp
    · exact ⟨hmissing, hlength⟩
    · exact hentered p hp
  refine ⟨fun last => ?_, fun p hp bytes => ?_, fun last => ?_, fun last hmem => ?_⟩
  · rw [walk_down_append, requireDirectory, hmissing]
    rfl
  · simp [(hway p hp).1]
  · exact nodeAt_append_eq_none (by simp [reached, hreached]) last
  · -- The places on the way do not lie as deep as what is at its end.
    have hle := (hway _ hmem).2
    rw [reached, List.length_append, List.length_singleton] at hle
    omega

/-- **Ways through a tree.** From a directory, steps that keep to the tree lead through directories
all along, or are stopped by a file, or lead to a new place. -/
theorem KeepsTo.cases (hplace : t.nodeAt place = some .directory)
    (hkeeps : t.KeepsTo place steps) :
    t.IsOpen place steps ∨ t.IsBlocked place steps ∨ t.LeadsToNew place steps := by
  induction steps generalizing place with
  | nil => exact .inl (by simp [IsOpen, entered])
  | cons step steps ih =>
      cases step with
      | up =>
          have habove : t.nodeAt place.dropLast = some .directory :=
            nodeAt_dropLast (by simp [hplace])
          rcases ih habove hkeeps.2 with hopen | hblocked | hnew
          · exact .inl hopen
          · exact .inr (.inl ⟨hblocked.walk, hblocked.file⟩)
          · exact .inr (.inr ⟨hnew.walk, hnew.clear, hnew.missing, hnew.aside⟩)
      | down name =>
          cases hname : t.nodeAt (place ++ [name]) with
          | none => exact .inr (.inr (KeepsTo.leadsToNew hname hkeeps))
          | some node =>
              cases node with
              | file bytes =>
                  refine .inr (.inl ⟨fun last => ?_, _, List.mem_cons_self, bytes, hname⟩)
                  rw [walk_down_append, requireDirectory, hname]
                  rfl
              | directory =>
                  rcases ih hname hkeeps with hopen | hblocked | hnew
                  · exact .inl (hopen.down hname)
                  · exact .inr (.inl (hblocked.down hname))
                  · exact .inr (.inr (hnew.down hname))

/-! ## Making directories -/

/-- Directories that are all there are not made again. -/
theorem makeDirectories_of_isOpen (h : t.IsOpen place steps) :
    t.makeDirectories place steps = (t, none) := by
  induction steps generalizing place with
  | nil => rfl
  | cons step steps ih =>
      cases step with
      | up => exact ih h
      | down name =>
          have hhere : t.nodeAt (place ++ [name]) = some .directory := h _ (by simp [entered])
          rw [makeDirectories, hhere]
          exact ih fun p hp => h p (by simp [entered, hp])

/-- All directories can be made only where no file is in the way. -/
theorem isClear_of_makeDirectories {made : FileTree} (hplace : t.nodeAt place = some .directory)
    (h : t.makeDirectories place steps = (made, none)) : t.IsClear place steps := by
  induction steps generalizing t place with
  | nil => simp [IsClear, entered]
  | cons step steps ih =>
      cases step with
      | up => exact ih (nodeAt_dropLast (by simp [hplace])) h
      | down name =>
          have hname : ∀ bytes, t.nodeAt (place ++ [name]) ≠ some (.file bytes) := by
            intro bytes hfile
            rw [makeDirectories, hfile] at h
            cases h
          obtain ⟨next, hmake, hnext⟩ := makeDirectories_down hplace hname steps
          have hthere : next.nodeAt (place ++ [name]) = some .directory := by
            rw [hnext, if_pos rfl]
          rw [hmake] at h
          intro p hp bytes hfile
          by_cases hhere : p = place ++ [name]
          · exact hname bytes (hhere ▸ hfile)
          · have hrest := (List.mem_cons.mp hp).resolve_left hhere
            refine ih hthere h p hrest bytes ?_
            rw [hnext, if_neg hhere, hfile]

/-- From one tree to another, nothing but missing directories at some places has been made. -/
def OnlyMade (places : List Place) (t next : FileTree) : Prop :=
  ∀ p, next.nodeAt p = t.nodeAt p ∨
    p ∈ places ∧ t.nodeAt p = none ∧ next.nodeAt p = some .directory

section

variable {places more : List Place} {next : FileTree}

theorem OnlyMade.refl (places : List Place) (t : FileTree) : OnlyMade places t t :=
  fun _ => .inl rfl

theorem OnlyMade.mono (h : OnlyMade places t next) (hsub : places ⊆ more) :
    OnlyMade more t next :=
  fun p => (h p).imp_right fun ⟨hp, hmade⟩ => ⟨hsub hp, hmade⟩

theorem OnlyMade.trans {last : FileTree} (h : OnlyMade places t next)
    (hlast : OnlyMade places next last) : OnlyMade places t last := by
  intro p
  rcases h p with hsame | ⟨hp, hmissing, hmade⟩
  · rw [← hsame]
    exact hlast p
  · refine .inr ⟨hp, hmissing, ?_⟩
    rcases hlast p with hsame | ⟨-, hnone, -⟩
    · rw [hsame, hmade]
    · rw [hmade] at hnone
      cases hnone

theorem onlyMade_of_insert (hmissing : t.nodeAt place = none)
    (h : t.insert place .directory = .ok next) : OnlyMade [place] t next := by
  obtain ⟨-, hnodes⟩ := nodeAt_of_insert h
  intro p
  rw [hnodes]
  by_cases hp : p = place
  · rw [if_pos hp, hp]
    exact .inr ⟨List.mem_singleton_self place, hmissing, rfl⟩
  · exact .inl (if_neg hp)

end

/-- **However far the directories of a path are made**, no other place changes. -/
theorem onlyMade_makeDirectories (t : FileTree) (place : Place) (steps : List PathStep) :
    OnlyMade (entered place steps) t (t.makeDirectories place steps).1 := by
  induction steps generalizing t place with
  | nil => exact OnlyMade.refl _ t
  | cons step steps ih =>
      cases step with
      | up => exact ih t place.dropLast
      | down name =>
          have hrest : ∀ made : FileTree, OnlyMade (entered place (.down name :: steps)) made
              (made.makeDirectories (place ++ [name]) steps).1 :=
            fun made => (ih made (place ++ [name])).mono (List.subset_cons_self _ _)
          rw [makeDirectories]
          cases hhere : t.nodeAt (place ++ [name]) with
          | none =>
              cases hinsert : t.insert (place ++ [name]) .directory with
              | error fault => exact OnlyMade.refl _ t
              | ok made =>
                  have hfirst := onlyMade_of_insert hhere hinsert
                  exact (hfirst.mono (by simp [entered])).trans (hrest made)
          | some node =>
              cases node with
              | file bytes => exact OnlyMade.refl _ t
              | directory => exact hrest t

section

variable (t) (current : Place) (p : Path)

theorem onlyMade_makeWay :
    OnlyMade (entered (origin current p) p.steps) t (t.makeWay current p).1 := by
  unfold makeWay
  split
  · exact t.onlyMade_makeDirectories _ _
  · exact OnlyMade.refl _ t

variable {t current p}

/-- The directories of a path can be made only from a directory, and where no file is in the way. -/
theorem isClear_of_makeWay {made : FileTree} (h : t.makeWay current p = (made, none)) :
    t.nodeAt (origin current p) = some .directory ∧ t.IsClear (origin current p) p.steps := by
  have hstart : t.nodeAt (origin current p) = some .directory := by
    unfold makeWay at h
    split at h
    · next hplace => exact requireDirectory_eq_ok_iff.mp hplace
    · cases h
  rw [makeWay_of_start hstart] at h
  exact ⟨hstart, isClear_of_makeDirectories hstart h⟩

end

/-! ## What fails at a directory -/

variable {current : Place} {p : Path} {name : String}

theorem locate_last (hlast : p.steps.getLast? = some (.down name)) :
    t.locate current p = t.locate current (p.sibling name) := by
  have hsteps : p.steps.dropLast ++ [.down name] = p.steps :=
    List.dropLast_append_getLast? _ hlast
  rw [locate, locate, Path.sibling, Path.child, Path.parent, hsteps]
  rfl

theorem write_sibling_of_directory (h : t.IsOpenTo current p)
    (hnode : t.nodeAt (p.siblingPlace current name) = some .directory) (bytes : List UInt8) :
    t.write current (p.sibling name) bytes = .error .isDirectory := by
  have hlocate := locate_sibling h name
  simp only [write, hlocate, bind, Except.bind, hnode]

/-- What is written beside the end of a path is inserted there, and the way to it is open. -/
theorem insert_of_write {bytes : List UInt8} {written : FileTree}
    (h : t.write current (p.sibling name) bytes = .ok written) :
    t.IsOpenTo current p ∧ t.insert (p.siblingPlace current name) (.file bytes) = .ok written := by
  have hlocated : ∃ place, t.locate current (p.sibling name) = .ok place := by
    cases hlocate : t.locate current (p.sibling name) with
    | ok place => exact ⟨place, rfl⟩
    | error fault => simp [write, hlocate, bind, Except.bind] at h
  obtain ⟨place, hlocate⟩ := hlocated
  obtain ⟨hopen, -⟩ := isOpenTo_of_locate hlocate
  have hfree : t.nodeAt (p.siblingPlace current name) ≠ some .directory := by
    intro hnode
    rw [write_sibling_of_directory hopen hnode] at h
    cases h
  exact ⟨hopen, (write_sibling hopen hfree bytes).symm.trans h⟩

/-- What a path leads to can be replaced by a file when it is none of the things that only a
directory can be. -/
theorem file_of_rename_eq_ok (h : t.IsOpenTo current p)
    (hlast : p.steps.getLast? = some (.down name)) {source : String} {bytes : List UInt8}
    {moved : FileTree} (hsource : t.nodeAt (p.siblingPlace current source) = some (.file bytes))
    (hrename : t.rename current (p.sibling source) p = .ok moved) :
    p.toDirectory = false ∧ t.nodeAt (p.siblingPlace current name) ≠ some .directory := by
  have hlocate := locate_sibling h
  simp only [rename, locate_last hlast, hlocate, bind, Except.bind, hsource] at hrename
  have hfree : t.nodeAt (p.siblingPlace current name) ≠ some .directory := by
    intro hnode
    simp [hnode] at hrename
  refine ⟨?_, hfree⟩
  by_contra hdirectory
  rw [Bool.not_eq_false] at hdirectory
  cases hnode : t.nodeAt (p.siblingPlace current name) with
  | none => simp [hnode, hdirectory] at hrename
  | some node =>
      cases node with
      | directory => exact hfree hnode
      | file old => simp [hnode, hdirectory] at hrename

end FileTree

end InstanceConsole

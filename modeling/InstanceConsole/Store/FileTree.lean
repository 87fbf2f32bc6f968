/-!
# File trees

A tree of directories and files as a finite map from places to what is there, and paths through
it. A place is the list of names from the root; a path may also go up. All that is there lies in a
directory, and every change of a tree keeps it so. Looking a path up fails as a file system does:
at a missing directory, or at a file where a directory has to be.
-/

set_option autoImplicit false

namespace InstanceConsole

inductive FileNode
  | file (bytes : List UInt8)
  | directory
  deriving DecidableEq, Repr

/-- The names on the way from the root. -/
abbrev Place := List String

/-- What is at a place, by a list of what is below the root. The root is always there. -/
def nodeAmong (entries : List (Place × FileNode)) (place : Place) : Option FileNode :=
  if place = [] then some .directory else entries.lookup place

/-- The files and directories below the root. All of them lie in directories. -/
structure FileTree where
  entries : List (Place × FileNode) := []
  isTree : ∀ entry ∈ entries, nodeAmong entries entry.1.dropLast = some .directory := by decide
  deriving DecidableEq, Repr

inductive FileFault
  | notFound
  | notDirectory
  | isDirectory
  deriving DecidableEq, Repr

/-! ## Paths -/

/-- One step of a path: to the directory above, or to what has a name here. -/
inductive PathStep
  | up
  | down (name : String)
  deriving DecidableEq, Repr

/-- A path from the root or from the current directory. One that ends in a slash or a dot can
only lead to a directory. -/
structure Path where
  fromRoot : Bool
  steps : List PathStep
  toDirectory : Bool
  deriving DecidableEq, Repr

namespace Path

/-- The parts of a path text between its slashes. -/
def parts (s : String) : List (List Char) := s.toList.splitOn '/'

/-- What a part of a path stands for; an empty part and a dot stay where they are. -/
def step? (part : List Char) : Option PathStep :=
  if part = [] ∨ part = ['.'] then none
  else if part = ['.', '.'] then some .up
  else some (.down (String.ofList part))

def ofText (s : String) : Path where
  fromRoot := s.toList.head? = some '/'
  steps := (parts s).filterMap step?
  toDirectory := ((parts s).getLast?.bind step?).isNone

/-- The name of a step in path texts. -/
def stepText : PathStep → String
  | .up => ".."
  | .down name => name

/-- A text for a path; an empty path leads to where it begins. -/
def text (p : Path) : String :=
  (if p.fromRoot then "/" else "./") ++ "/".intercalate (p.steps.map stepText)

/-- A path that goes on with a name. -/
def child (p : Path) (name : String) : Path :=
  { p with steps := p.steps ++ [.down name], toDirectory := false }

/-- The path to where the last step starts from. -/
def parent (p : Path) : Path := { p with steps := p.steps.dropLast, toDirectory := true }

/-- A file name without its extension, which begins at the last dot unless that is the first
character. -/
def stem (name : List Char) : List Char :=
  match (name.reverse.dropWhile (· ≠ '.')).drop 1 with
  | [] => name
  | before => before.reverse

/-- The path with another extension on its last name. -/
def withExtension (p : Path) (extension : String) : Path :=
  match p.steps.getLast? with
  | some (.down name) =>
      p.parent.child (String.ofList (stem name.toList ++ '.' :: extension.toList))
  | _ => p

end Path

namespace FileTree

/-! ## Places -/

/-- What is at a place. -/
def nodeAt (t : FileTree) (place : Place) : Option FileNode := nodeAmong t.entries place

/-- That a place is a directory. -/
def requireDirectory (t : FileTree) (place : Place) : Except FileFault Unit :=
  match t.nodeAt place with
  | some .directory => .ok ()
  | some (.file _) => .error .notDirectory
  | none => .error .notFound

/-! ## Changes -/

section

variable {entries : List (Place × FileNode)} {place other : Place}

theorem nodeAmong_filter_ne (h : other ≠ place) :
    nodeAmong (entries.filter (·.1 ≠ place)) other = nodeAmong entries other := by
  have hlookup : (entries.filter (·.1 ≠ place)).lookup other = entries.lookup other := by
    induction entries with
    | nil => rfl
    | cons entry entries ih =>
        by_cases hentry : entry.1 = place
        · have hne : (other == entry.1) = false := by simpa [hentry] using h
          rw [List.filter_cons_of_neg (by simp [hentry]), ih, List.lookup_cons, hne]
        · rw [List.filter_cons_of_pos (by simp [hentry]), List.lookup_cons, List.lookup_cons, ih]
  rw [nodeAmong, hlookup, nodeAmong]

theorem nodeAmong_cons_of_ne (node : FileNode) (h : other ≠ place) :
    nodeAmong ((place, node) :: entries) other = nodeAmong entries other := by
  have hne : (other == place) = false := by simpa using h
  rw [nodeAmong, List.lookup_cons, hne, nodeAmong]

end

/-- A tree stays one without what is no directory. -/
theorem isTree_filter_ne (t : FileTree) {place : Place}
    (hplace : t.nodeAt place ≠ some .directory) :
    ∀ entry ∈ t.entries.filter (·.1 ≠ place),
      nodeAmong (t.entries.filter (·.1 ≠ place)) entry.1.dropLast = some .directory := by
  intro entry hentry
  have habove := t.isTree entry (List.mem_filter.mp hentry).1
  have hne : entry.1.dropLast ≠ place := fun heq => hplace (heq ▸ habove)
  rw [nodeAmong_filter_ne hne, habove]

/-- A tree stays one with something in a directory. -/
theorem isTree_cons (t : FileTree) {place : Place} (hplace : t.nodeAt place ≠ some .directory)
    (habove : t.nodeAt place.dropLast = some .directory) (node : FileNode) :
    ∀ entry ∈ (place, node) :: t.entries.filter (·.1 ≠ place),
      nodeAmong ((place, node) :: t.entries.filter (·.1 ≠ place)) entry.1.dropLast =
        some .directory := by
  have hkept : ∀ above, nodeAmong t.entries above = some .directory →
      nodeAmong ((place, node) :: t.entries.filter (·.1 ≠ place)) above = some .directory := by
    intro above h
    have hne : above ≠ place := fun heq => hplace (heq ▸ h)
    rw [nodeAmong_cons_of_ne node hne, nodeAmong_filter_ne hne, h]
  intro entry hentry
  rcases List.mem_cons.mp hentry with rfl | hentry
  · exact hkept _ habove
  · exact hkept _ (t.isTree entry (List.mem_filter.mp hentry).1)

/-- The tree with something else at a place, where there is no directory yet, but one above. -/
def insert (t : FileTree) (place : Place) (node : FileNode) : Except FileFault FileTree :=
  if hplace : t.nodeAt place = some .directory then .error .isDirectory
  else if habove : t.nodeAt place.dropLast = some .directory then
    .ok ⟨(place, node) :: t.entries.filter (·.1 ≠ place), t.isTree_cons hplace habove node⟩
  else if t.nodeAt place.dropLast = none then .error .notFound
  else .error .notDirectory

/-- The tree with nothing at a place, where there is no directory. -/
def erase (t : FileTree) (place : Place) : Except FileFault FileTree :=
  if hplace : t.nodeAt place = some .directory then .error .isDirectory
  else .ok ⟨t.entries.filter (·.1 ≠ place), t.isTree_filter_ne hplace⟩

/-- The tree with a file in another place than before. -/
def move (t : FileTree) (source target : Place) (bytes : List UInt8) :
    Except FileFault FileTree := do
  let erased ← t.erase source
  erased.insert target (.file bytes)

/-! ## Ways -/

/-- The place that steps from a directory lead to. All places on the way are directories; the
last one may be missing. -/
def walk (t : FileTree) (place : Place) : List PathStep → Except FileFault Place
  | [] => .ok place
  | .up :: steps => walk t place.dropLast steps
  | [.down name] => .ok (place ++ [name])
  | .down name :: steps => do
      t.requireDirectory (place ++ [name])
      walk t (place ++ [name]) steps

/-- Where a path begins. -/
def origin (current : Place) (p : Path) : Place := if p.fromRoot then [] else current

/-- The place that a path leads to, which begins at a directory. -/
def locate (t : FileTree) (current : Place) (p : Path) : Except FileFault Place := do
  t.requireDirectory (origin current p)
  t.walk (origin current p) p.steps

/-! ## Files -/

/-- The bytes of a file. -/
def read (t : FileTree) (current : Place) (p : Path) : Except FileFault (List UInt8) := do
  let place ← t.locate current p
  match t.nodeAt place with
  | none => .error .notFound
  | some .directory => .error .isDirectory
  | some (.file bytes) => if p.toDirectory then .error .notDirectory else .ok bytes

/-- Writes a file that may or may not be there. -/
def write (t : FileTree) (current : Place) (p : Path) (bytes : List UInt8) :
    Except FileFault FileTree := do
  let place ← t.locate current p
  match t.nodeAt place with
  | some .directory => .error .isDirectory
  | some (.file _) =>
      if p.toDirectory then .error .notDirectory else t.insert place (.file bytes)
  | none =>
      if p.toDirectory then .error .isDirectory else t.insert place (.file bytes)

/-- Moves a file to another path, in the place of a file that may be there. -/
def rename (t : FileTree) (current : Place) (source target : Path) : Except FileFault FileTree := do
  let sourcePlace ← t.locate current source
  let targetPlace ← t.locate current target
  match t.nodeAt sourcePlace, t.nodeAt targetPlace with
  | some (.file bytes), some (.file _) =>
      if target.toDirectory then .error .notDirectory
      else t.move sourcePlace targetPlace bytes
  | some (.file bytes), none =>
      if target.toDirectory then .error .notDirectory
      else t.move sourcePlace targetPlace bytes
  | some (.file _), some .directory => .error .isDirectory
  | some .directory, _ => .error .isDirectory
  | none, _ => .error .notFound

/-- Makes every directory that steps from a directory lead through. Those made before a fault
stay. -/
def makeDirectories (t : FileTree) (place : Place) : List PathStep → FileTree × Option FileFault
  | [] => (t, none)
  | .up :: steps => makeDirectories t place.dropLast steps
  | .down name :: steps =>
      match t.nodeAt (place ++ [name]) with
      | some .directory => makeDirectories t (place ++ [name]) steps
      | some (.file _) => (t, some .notDirectory)
      | none =>
          match t.insert (place ++ [name]) .directory with
          | .ok made => makeDirectories made (place ++ [name]) steps
          | .error fault => (t, some fault)

/-- Makes every directory that a path leads through, if there is one where it begins. -/
def makeWay (t : FileTree) (current : Place) (p : Path) : FileTree × Option FileFault :=
  match t.requireDirectory (origin current p) with
  | .ok () => t.makeDirectories (origin current p) p.steps
  | .error fault => (t, some fault)

end FileTree

end InstanceConsole

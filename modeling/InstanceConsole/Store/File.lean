import InstanceConsole.Json.Reader
import InstanceConsole.Json.Writer
import InstanceConsole.Store.FileTree
import InstanceConsole.Store.State
import InstanceConsole.Text.Utf8

/-!
# The state in a file

The stored state as a JSON document in one file. A missing file is the default state. An update
reads the state first, writes the new one to a temporary file beside it, and moves that into
place, so that a reader never sees half a document.
-/

set_option autoImplicit false

namespace InstanceConsole

inductive StoreError
  /-- The file could not be read or written, or is not text. -/
  | io
  /-- The text in the file is not a document of the state. -/
  | corrupt
  deriving DecidableEq, Repr

/-- A file that holds the state: its path, and the directory that the path may begin at. -/
structure StateFile where
  current : Place
  path : Path
  deriving DecidableEq, Repr

namespace StateFile

/-- The state that a text stands for. -/
def decode (text : String) : Except StoreError StoredState :=
  match (Json.read text).bind StoredState.ofJson? with
  | some state => .ok state
  | none => .error .corrupt

/-- The text that stands for a state. -/
def encode (state : StoredState) : String := state.toJson.pretty

/-- The state in the file. -/
def get (f : StateFile) (t : FileTree) : Except StoreError StoredState :=
  match t.read f.current f.path with
  | .error .notFound => .ok {}
  | .error _ => .error .io
  | .ok bytes =>
      match Utf8.decodeStrict bytes with
      | none => .error .io
      | some text => decode text

/-- The file that an update is written to before it takes the place of the state. -/
def temporary (f : StateFile) : Path := f.path.withExtension "json.tmp"

/-- Puts a state into the file through the temporary file. -/
def replace (f : StateFile) (t : FileTree) (state : StoredState) :
    FileTree × Except StoreError Unit :=
  match t.write f.current f.temporary (Utf8.ofString (encode state)) with
  | .error _ => (t, .error .io)
  | .ok written =>
      match written.rename f.current f.temporary f.path with
      | .error _ => (written, .error .io)
      | .ok moved => (moved, .ok ())

/-- Updates the state in the file, making the directories on the way to it. -/
def put (f : StateFile) (t : FileTree) (patch : StatePatch) : FileTree × Except StoreError Unit :=
  match f.get t with
  | .error e => (t, .error e)
  | .ok state =>
      match t.makeWay f.current f.path.parent with
      | (made, some _) => (made, .error .io)
      | (made, none) => f.replace made (state.apply patch)

end StateFile

end InstanceConsole

import InstanceConsole.CommandLine.Run

/-!
# The program

The state file is read into a file tree, the command runs on it, and what it leaves there is
written back through the temporary file. The program has no network: its requests stay
unanswered, and the page then shows that the fetch has failed. Nor does it have the tables for
international domain names, so it takes a base URL with a name in plain ASCII only.
-/

set_option autoImplicit false

namespace InstanceConsole

/-- A transport that answers no request. -/
def unanswering : Transport Unit := fun _ _ => (.unanswered, ())

/-- The names on the way to the directory that a text stands for. -/
def placeOf (directory : String) : Place :=
  (Path.ofText directory).steps.filterMap fun
    | .down name => some name
    | .up => none

/-- A tree with the state file, if it is there. One that cannot be read stands as a directory,
which cannot be read either. -/
def loadState (file : StateFile) (files : FileTree) : IO FileTree := do
  let onTheWay := (files.makeWay file.current file.path.parent).1
  let withNode (node : FileNode) : FileTree :=
    match onTheWay.locate file.current file.path with
    | .ok place => (onTheWay.insert place node).toOption.getD onTheWay
    | .error _ => onTheWay
  try
    return withNode (.file (← IO.FS.readBinFile file.path.text).toList)
  catch
    | .noFileOrDirectory .. => return files
    | _ => return withNode .directory

/-- Writes the state file of a tree, unless it is as before. -/
def saveState (file : StateFile) (before after : FileTree) : IO Unit := do
  match after.read file.current file.path, before.read file.current file.path with
  | .ok bytes, old =>
      if old.toOption ≠ some bytes then
        IO.FS.createDirAll file.path.parent.text
        IO.FS.writeBinFile file.temporary.text ⟨bytes.toArray⟩
        IO.FS.rename file.temporary.text file.path.text
  | .error _, _ => return

/-- Runs the command that arguments stand for, and gives its exit code. -/
def runProgram (arguments : List String) : IO UInt32 := do
  let environment : CommandLine.Environment :=
    { files := {}
      current := placeOf (← IO.currentDir).toString
      home := (← IO.getEnv "HOME").getD ""
      baseUrl := ← IO.getEnv "OPERATE_BASE_URL" }
  let file? := CommandLine.stateFile? environment arguments
  let start := (FileTree.makeDirectories {} [] (environment.current.map .down)).1
  let before ← match file? with
    | some file => loadState file start
    | none => pure start
  let environment := { environment with files := before }
  let (outcome, ()) := CommandLine.run Domain.plainMapping unanswering environment arguments ()
  if let some file := file? then
    try saveState file before outcome.files
    catch e => IO.eprintln (toString e)
  IO.print outcome.stdout
  if let some message := outcome.error then IO.eprintln ("Error: " ++ message)
  return outcome.exitCode.toUInt32

end InstanceConsole

def main (arguments : List String) : IO UInt32 := InstanceConsole.runProgram arguments

import InstanceConsole.Client.Basic
import InstanceConsole.CommandLine.Arguments
import InstanceConsole.Page.Session
import InstanceConsole.Page.View
import InstanceConsole.Store.File

/-!
# Running a command

A command opens the page on the stored state, sends it the events that the command stands for, one
after the other with all fetches answered between them, and prints what the page shows in the end.
-/

set_option autoImplicit false

namespace InstanceConsole.CommandLine

/-- What the console finds when it starts. -/
structure Environment where
  files : FileTree
  /-- The current directory. -/
  current : Place
  /-- The home directory. -/
  home : String
  /-- The base URL to use when none is given among the arguments. -/
  baseUrl : Option String
  deriving DecidableEq, Repr

/-- What the console leaves behind. -/
structure Outcome where
  exitCode : Nat
  stdout : String := ""
  error : Option String := none
  files : FileTree
  deriving DecidableEq, Repr

/-- The path of the page. -/
def instancesPath : String := "/instances"

/-- The name of the file that holds the state. -/
def stateFileName : String := "instances.json"

def defaultBaseUrl : String := "http://localhost:8080/"

/-- What is printed when no command is given. -/
def greeting : String := "operate - use --help to see available commands\n"

/-! ## Commands as events -/

inductive CommandError
  /-- The patch is not a filter document. -/
  | unreadablePatch
  /-- A field of the patch does not decode. -/
  | invalidPatch
  | emptyPatch
  deriving DecidableEq, Repr

def CommandError.message : CommandError → String
  | .unreadablePatch => "failed to parse filter patch"
  | .invalidPatch => "invalid filter patch"
  | .emptyPatch => "filter patch sets no fields"

/-- The patch that a text stands for. -/
def patchOfText (s : String) : Except CommandError FilterPatch :=
  match (Json.read s).bind WireFilter.ofJson? with
  | none => .error .unreadablePatch
  | some wire =>
      match wire.toPatch with
      | .error _ => .error .invalidPatch
      | .ok patch => if patch.isEmpty then .error .emptyPatch else .ok patch

/-- The events that pick instances: those named, or all when none is. -/
def pick (instances : List String) : List PageEvent :=
  if instances.isEmpty then [.selectAll] else instances.map .toggleInstance

def Command.events : Command → Except CommandError (List PageEvent)
  | .show => .ok []
  | .filter text => (patchOfText text).map fun patch => [.filterChanged patch]
  | .reset => .ok [.filterReset]
  | .addSelection instances => .ok (pick instances ++ [.addNewSelection])
  | .extendSelection id instances => .ok (pick instances ++ [.addToSelection id])
  | .removeSelection id => .ok [.removeSelection id]

/-! ## The page of a command -/

/-- The file that holds the state. -/
def stateFile (env : Environment) (options : Options) : StateFile where
  current := env.current
  path :=
    let directory := match options.dataDir with
      | some directory => Path.ofText directory
      | none => (Path.ofText env.home).child ".operate"
    directory.child stateFileName

/-- The file that holds the state for a command among arguments. -/
def stateFile? (env : Environment) (arguments : List String) : Option StateFile :=
  match Invocation.ofArguments arguments with
  | .ok ⟨options, some _⟩ => some (stateFile env options)
  | _ => none

/-- The query string of the stored filter, or nothing. -/
def storedSearch (stored : Except StoreError StoredState) : String :=
  match stored with
  | .ok state => (state.filter.map Filter.toQuery).getD ""
  | .error _ => ""

/-- The stored state, or the default one when it cannot be read. -/
def storedOrDefault : Except StoreError StoredState → StoredState
  | .ok state => state
  | .error _ => {}

/-- Sends events to the page, settling it after each. -/
def follow {σ : Type} (backend : Backend σ) (session : Session) (state : σ)
    (events : List PageEvent) : Session × σ :=
  events.foldl (fun (session, state) event => (session.dispatch event).settle backend state)
    (session, state)

/-- The session of a command from its start to its end. -/
def session {σ : Type} (backend : Backend σ) (stored : Except StoreError StoredState)
    (search : String) (events : List PageEvent) (state : σ) : Session × σ :=
  let (session, state) :=
    (Session.mount (storedOrDefault stored) ⟨instancesPath, search⟩).settle backend state
  follow backend session state events

/-- The files after updates of the state. An update that fails is dropped. -/
def writeAll (file : StateFile) (files : FileTree) (writes : List StatePatch) : FileTree :=
  writes.foldl (fun files patch => (file.put files patch).1) files

/-- What the page shows, as a document. -/
def report (p : Page) : Json :=
  .record <|
    [("search", .text p.history.current.search), ("header", p.snapshot.header.toJson)] ++
    p.snapshot.members

/-! ## The program -/

/-- Runs a command that has been read from the arguments. -/
def runCommand {σ : Type} (domains : DomainMapping) (transport : Transport σ) (env : Environment)
    (options : Options) (command : Command) (state : σ) : Outcome × σ :=
  let fail (message : String) : Outcome :=
    { exitCode := 1, error := some message, files := env.files }
  let baseUrl := (options.baseUrl <|> env.baseUrl).getD defaultBaseUrl
  match command.events, Client.ofText domains baseUrl with
  | .error e, _ => (fail e.message, state)
  | .ok _, .error _ => (fail ("invalid base url: " ++ baseUrl), state)
  | .ok events, .ok client =>
      let file := stateFile env options
      let stored := file.get env.files
      let search := options.query.getD (storedSearch stored)
      let (session, state) := session (client.backend transport) stored search events state
      let error := session.page.snapshot.errorMessage
      ({ exitCode := if error.isSome then 1 else 0
         stdout := (report session.page).pretty ++ "\n"
         error
         files := writeAll file env.files session.page.writes }, state)

/-- Runs the console with arguments. The texts that are printed when help or the version is asked
for, and those about a misuse, are left out. -/
def run {σ : Type} (domains : DomainMapping) (transport : Transport σ) (env : Environment)
    (arguments : List String) (state : σ) : Outcome × σ :=
  match Invocation.ofArguments arguments with
  | .error .information => ({ exitCode := 0, files := env.files }, state)
  | .error .misuse => ({ exitCode := 2, files := env.files }, state)
  | .ok ⟨_, none⟩ => ({ exitCode := 0, stdout := greeting, files := env.files }, state)
  | .ok ⟨options, some command⟩ => runCommand domains transport env options command state

end InstanceConsole.CommandLine

import InstanceConsole.Text.Numeral

/-!
# Arguments of the command line

The options of the console may stand before or after its commands; of the values that one option
has on several levels the innermost counts. On one level an option with a value, and the verbose
flag, may stand only once, while instances may be named again and again. After two hyphens all
that follows are arguments.
-/

set_option autoImplicit false

namespace InstanceConsole.CommandLine

inductive Command
  | show
  | filter (patch : String)
  | reset
  | addSelection (instances : List String)
  | extendSelection (id : UInt64) (instances : List String)
  | removeSelection (id : UInt64)
  deriving DecidableEq, Repr

/-- The options that stand with any command. -/
structure Options where
  baseUrl : Option String := none
  dataDir : Option String := none
  query : Option String := none
  verbose : Bool := false
  deriving DecidableEq, Repr

structure Invocation where
  options : Options
  command : Option Command
  deriving DecidableEq, Repr

/-- Why arguments lead to no invocation: they ask how to use the program, or cannot be used. -/
inductive UsageError
  | information
  | misuse
  deriving DecidableEq, Repr

/-! ## Levels -/

/-- How far the commands have been read. -/
inductive Level
  | top
  | show
  | filter
  | reset
  | select
  | add
  | extend
  | remove
  deriving DecidableEq, Repr

/-- The command that a name stands for on a level. -/
def Level.command? (level : Level) (name : String) : Option Level :=
  match level with
  | .top =>
      if name = "show" then some .show
      else if name = "filter" then some .filter
      else if name = "reset" then some .reset
      else if name = "select" then some .select
      else none
  | .select =>
      if name = "add" then some .add
      else if name = "extend" then some .extend
      else if name = "remove" then some .remove
      else none
  | _ => none

/-- Whether commands may follow on a level. -/
def Level.hasCommands (level : Level) : Bool := level = .top || level = .select

/-- Whether a level has an argument of its own. -/
def Level.hasArgument (level : Level) : Bool :=
  level = .filter || level = .extend || level = .remove

/-- Whether instances can be named on a level. -/
def Level.hasInstances (level : Level) : Bool := level = .add || level = .extend

/-- An option with a value. -/
inductive ValueOption
  | baseUrl
  | dataDir
  | query
  | «instance»
  deriving DecidableEq, Repr

def ValueOption.ofName? (level : Level) (name : String) : Option ValueOption :=
  if name = "base-url" then some .baseUrl
  else if name = "data-dir" then some .dataDir
  else if name = "query" then some .query
  else if name = "instance" ∧ level.hasInstances then some .instance
  else none

/-- The options with those of a more inner level, which count before them. -/
def Options.override (outer inner : Options) : Options where
  baseUrl := inner.baseUrl <|> outer.baseUrl
  dataDir := inner.dataDir <|> outer.dataDir
  query := inner.query <|> outer.query
  verbose := inner.verbose || outer.verbose

/-! ## Reading -/

/-- What has been read so far. -/
structure Progress where
  level : Level := .top
  /-- The options of the levels before. -/
  outer : Options := {}
  options : Options := {}
  instances : List String := []
  argument : Option String := none
  /-- An option whose value comes next. -/
  pending : Option ValueOption := none
  /-- Whether two hyphens have been read. -/
  onlyArguments : Bool := false
  deriving DecidableEq, Repr

namespace Progress

/-- Sets an option that has not been set on this level. A data directory has a name. -/
def setValue (p : Progress) (option : ValueOption) (value : String) :
    Except UsageError Progress :=
  match option with
  | .baseUrl =>
      if p.options.baseUrl.isSome then .error .misuse
      else .ok { p with options := { p.options with baseUrl := some value } }
  | .dataDir =>
      if p.options.dataDir.isSome ∨ value = "" then .error .misuse
      else .ok { p with options := { p.options with dataDir := some value } }
  | .query =>
      if p.options.query.isSome then .error .misuse
      else .ok { p with options := { p.options with query := some value } }
  | .instance => .ok { p with instances := p.instances ++ [value] }

def setVerbose (p : Progress) : Except UsageError Progress :=
  if p.options.verbose then .error .misuse
  else .ok { p with options := { p.options with verbose := true } }

/-- An option by its long name, with a value if one is attached. -/
def longOption (p : Progress) (name : String) (value : Option String) :
    Except UsageError Progress :=
  match ValueOption.ofName? p.level name, value with
  | some option, some value => p.setValue option value
  | some option, none => .ok { p with pending := some option }
  | none, some _ => .error .misuse
  | none, none =>
      if name = "verbose" then p.setVerbose
      else if name = "help" ∨ (name = "version" ∧ p.level = .top) then .error .information
      else .error .misuse

/-- Options by their short names. -/
def shortOptions (p : Progress) : List Char → Except UsageError Progress
  | [] => .ok p
  | c :: cs =>
      if c = 'v' then do
        let p ← p.setVerbose
        shortOptions p cs
      else if c = 'h' ∨ (c = 'V' ∧ p.level = .top) then .error .information
      else .error .misuse

/-- An id of a selection. -/
def id? (s : String) : Option UInt64 :=
  (Numeral.unsigned? UInt64.size s.toList).map UInt64.ofNat

/-- The argument of the command: a patch, or the id of a selection. -/
def setArgument (p : Progress) (value : String) : Except UsageError Progress :=
  if p.level.hasArgument ∧ p.argument = none ∧ (p.level = .filter ∨ (id? value).isSome) then
    .ok { p with argument := some value }
  else .error .misuse

/-- Goes on to a command. -/
def enter (p : Progress) (level : Level) : Progress :=
  { level, outer := p.outer.override p.options }

/-- Whether a text looks like an option. -/
def looksLikeOption (s : String) : Bool :=
  match s.toList with
  | '-' :: _ :: _ => true
  | _ => false

/-- The name of a long option, and the value after an equals sign. -/
def nameAndValue (cs : List Char) : String × Option String :=
  (String.ofList (cs.takeWhile (· ≠ '=')),
   match cs.dropWhile (· ≠ '=') with
   | [] => none
   | _ :: value => some (String.ofList value))

/-- One more argument. -/
def next (p : Progress) (s : String) : Except UsageError Progress :=
  match p.pending with
  | some option =>
      if looksLikeOption s then .error .misuse
      else { p with pending := none }.setValue option s
  | none =>
      if p.onlyArguments then p.setArgument s
      else match p.level.command? s with
        | some level => .ok (p.enter level)
        | none =>
            if s = "help" ∧ p.level.hasCommands then .error .information
            else match s.toList with
              | ['-', '-'] => .ok { p with onlyArguments := true }
              | '-' :: '-' :: cs =>
                  let (name, value) := nameAndValue cs
                  p.longOption name value
              | '-' :: c :: cs => p.shortOptions (c :: cs)
              | _ => p.setArgument s

/-- The command, once all arguments have been read. -/
def command (p : Progress) : Except UsageError (Option Command) :=
  match p.level, p.argument, p.argument.bind id? with
  | .top, _, _ => .ok none
  | .show, _, _ => .ok (some .show)
  | .filter, some patch, _ => .ok (some (.filter patch))
  | .reset, _, _ => .ok (some .reset)
  | .add, _, _ => .ok (some (.addSelection p.instances))
  | .extend, _, some id => .ok (some (.extendSelection id p.instances))
  | .remove, _, some id => .ok (some (.removeSelection id))
  | _, _, _ => .error .misuse

end Progress

/-- The invocation that arguments stand for. -/
def Invocation.ofArguments (arguments : List String) : Except UsageError Invocation := do
  let p ← arguments.foldlM Progress.next ({} : Progress)
  if p.pending.isSome then .error .misuse
  let command ← p.command
  return { options := p.outer.override p.options, command }

end InstanceConsole.CommandLine

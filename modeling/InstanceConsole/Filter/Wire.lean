import InstanceConsole.Filter.Error
import InstanceConsole.Filter.Patch
import InstanceConsole.Json.Reader
import InstanceConsole.Json.Writer

/-!
# The wire form of a filter

In a query string all but the flags travel as texts: ids are joined with commas, dates are
`YYYY-MM-DD`, and a variable is a JSON document of its own. A name that is no field spoils the
whole form. The wire form is read as a filter, where blank fields are unset, or as a patch, where
they are cleared.
-/

set_option autoImplicit false

namespace InstanceConsole

structure WireFilter where
  active : Option Bool := none
  incidents : Option Bool := none
  completed : Option Bool := none
  canceled : Option Bool := none
  ids : Option String := none
  errorMessage : Option String := none
  startDate : Option String := none
  endDate : Option String := none
  activityId : Option String := none
  workflow : Option String := none
  version : Option String := none
  variableFilter : Option String := none
  deriving DecidableEq, Repr

namespace WireFilter

/-! ## As a document -/

/-- The members of the document; fields without a value are left out. -/
def members (w : WireFilter) : List (String × Json) :=
  Json.optionalMember "active" .bool w.active ++
  Json.optionalMember "incidents" .bool w.incidents ++
  Json.optionalMember "completed" .bool w.completed ++
  Json.optionalMember "canceled" .bool w.canceled ++
  Json.optionalMember "ids" .text w.ids ++
  Json.optionalMember "errorMessage" .text w.errorMessage ++
  Json.optionalMember "startDate" .text w.startDate ++
  Json.optionalMember "endDate" .text w.endDate ++
  Json.optionalMember "activityId" .text w.activityId ++
  Json.optionalMember "workflow" .text w.workflow ++
  Json.optionalMember "version" .text w.version ++
  Json.optionalMember "variable" .text w.variableFilter

def toJson (w : WireFilter) : Json := .record w.members

def ofJson? (j : Json) : Option WireFilter := do
  let fields ← Json.closedRecord? Filter.fieldNames j
  let active ← fields.optional "active" Json.bool?
  let incidents ← fields.optional "incidents" Json.bool?
  let completed ← fields.optional "completed" Json.bool?
  let canceled ← fields.optional "canceled" Json.bool?
  let ids ← fields.optional "ids" Json.text?
  let errorMessage ← fields.optional "errorMessage" Json.text?
  let startDate ← fields.optional "startDate" Json.text?
  let endDate ← fields.optional "endDate" Json.text?
  let activityId ← fields.optional "activityId" Json.text?
  let workflow ← fields.optional "workflow" Json.text?
  let version ← fields.optional "version" Json.text?
  let variableFilter ← fields.optional "variable" Json.text?
  some { active, incidents, completed, canceled, ids, errorMessage, startDate, endDate,
         activityId, workflow, version, variableFilter }

/-! ## Single fields -/

/-- Whether a character stands between two ids. -/
def isIdSeparator (c : Char) : Bool := c = ',' || Text.isBlankChar c

/-- The ids in a list with commas or blanks between them; empty ones do not count. -/
def splitIds (s : String) : List String :=
  ((s.toList.splitOnP isIdSeparator).filter (· ≠ [])).map String.ofList

/-- A date, or nothing when the text is blank. -/
def decodeDate (field : DateField) (s : String) : Except FilterError (Option Date) :=
  if Text.isBlank s then .ok none
  else match Date.ofTightText? (Text.trim s) with
    | some date => .ok (some date)
    | none => .error (.invalidDate field s)

/-- A version, or nothing when the text is blank. -/
def decodeVersion (s : String) : Except FilterError (Option WorkflowVersion) :=
  if Text.isBlank s then .ok none
  else match WorkflowVersion.ofText? (Text.trim s) with
    | some version => .ok (some version)
    | none => .error (.invalidVersion (Text.trim s))

/-- A variable document, or nothing when the text is blank. -/
def decodeVariable (s : String) : Except FilterError (Option VariableFilter) :=
  if Text.isBlank s then .ok none
  else match (Json.read s).bind VariableFilter.ofJson? with
    | some v => .ok (some v)
    | none => .error .invalidVariable

/-- Decodes a field that is there; an absent one leaves the value unset. -/
def decodeField {α : Type} (decode : String → Except FilterError (Option α)) :
    Option String → Except FilterError (Option α)
  | none => .ok none
  | some s => decode s

/-- Decodes a field that is there as a change; an absent one keeps the value. -/
def decodeChange {α : Type} (decode : String → Except FilterError (Option α)) :
    Option String → Except FilterError (Change α)
  | none => .ok .keep
  | some s => (decode s).map .replace

/-- A change by a text that is there: a blank one clears. -/
def textChange : Option String → Change String
  | none => .keep
  | some s => .replace (Filter.unlessBlank s)

/-- A change by ids that are there: none at all clear. -/
def idsChange : Option String → Change (List String)
  | none => .keep
  | some s => .replace ((some (splitIds s)).filter (· ≠ []))

/-! ## The whole form -/

/-- The filter that the form stands for. Of several fields that do not decode, the first of start
date, end date, version and variable is reported. -/
def toFilter (w : WireFilter) : Except FilterError Filter := do
  let startDate ← decodeField (decodeDate .startDate) w.startDate
  let endDate ← decodeField (decodeDate .endDate) w.endDate
  let version ← decodeField decodeVersion w.version
  let variableFilter ← decodeField decodeVariable w.variableFilter
  return Filter.normalized
    { active := w.active
      incidents := w.incidents
      completed := w.completed
      canceled := w.canceled
      ids := w.ids.map splitIds
      errorMessage := w.errorMessage
      startDate
      endDate
      activityId := w.activityId
      workflow := w.workflow
      version
      variableFilter }

/-- The change that the form stands for: a field that is there is set, or cleared when blank. -/
def toPatch (w : WireFilter) : Except FilterError FilterPatch := do
  let startDate ← decodeChange (decodeDate .startDate) w.startDate
  let endDate ← decodeChange (decodeDate .endDate) w.endDate
  let version ← decodeChange decodeVersion w.version
  let variableFilter ← decodeChange decodeVariable w.variableFilter
  return {
      active := w.active
      incidents := w.incidents
      completed := w.completed
      canceled := w.canceled
      ids := idsChange w.ids
      errorMessage := textChange w.errorMessage
      startDate
      endDate
      activityId := textChange w.activityId
      workflow := textChange w.workflow
      version
      variableFilter }

/-- The wire form of a filter, without the fields that hold nothing. -/
def ofFilter (filter : Filter) : WireFilter :=
  let f := filter.normalized
  { active := f.active
    incidents := f.incidents
    completed := f.completed
    canceled := f.canceled
    ids := f.ids.map (String.intercalate ",")
    errorMessage := f.errorMessage
    startDate := f.startDate.map Date.text
    endDate := f.endDate.map Date.text
    activityId := f.activityId
    workflow := f.workflow
    version := f.version.map WorkflowVersion.text
    variableFilter := f.variableFilter.map fun v => v.toJson.compact }

end WireFilter

end InstanceConsole

import InstanceConsole.Calendar.Document
import InstanceConsole.Filter.Version
import InstanceConsole.Json.Record

/-!
# Filters

A filter says which workflow instances a user wants to see. Each of its twelve fields may be
unset. `normalized` unsets the fields that hold nothing, and a filter with no field set is empty.
-/

set_option autoImplicit false

namespace InstanceConsole

/-- A variable that an instance must have, with its value. -/
structure VariableFilter where
  name : String
  value : String
  deriving DecidableEq, Repr

structure Filter where
  active : Option Bool := none
  incidents : Option Bool := none
  completed : Option Bool := none
  canceled : Option Bool := none
  ids : Option (List String) := none
  errorMessage : Option String := none
  startDate : Option Date := none
  endDate : Option Date := none
  activityId : Option String := none
  workflow : Option String := none
  version : Option WorkflowVersion := none
  variableFilter : Option VariableFilter := none
  deriving DecidableEq, Repr

namespace VariableFilter

def toJson (v : VariableFilter) : Json :=
  .record [("name", .text v.name), ("value", .text v.value)]

def ofJson? (j : Json) : Option VariableFilter := do
  let fields ← Json.openRecord? ["name", "value"] j
  let name ← fields.required "name" Json.text?
  let value ← fields.required "value" Json.text?
  some { name, value }

end VariableFilter

namespace Filter

/-- The filter of a console that has not been told otherwise: the running instances. -/
def default : Filter := { active := some true, incidents := some true }

/-- Keeps a text that is not blank. -/
def unlessBlank (s : String) : Option String := if Text.isBlank s then none else some s

/-- Unsets an empty list of ids, blank texts, and a variable with a blank name. -/
def normalized (f : Filter) : Filter :=
  { f with
    ids := f.ids.filter (· ≠ [])
    errorMessage := f.errorMessage.bind unlessBlank
    activityId := f.activityId.bind unlessBlank
    workflow := f.workflow.bind unlessBlank
    variableFilter := f.variableFilter.filter fun v => !Text.isBlank v.name }

/-- Whether no field is set. -/
def isEmpty (f : Filter) : Bool := decide (f = {})

/-- Whether running instances are asked for. -/
def isRunning (f : Filter) : Bool := f.active.getD false || f.incidents.getD false

/-- Whether finished instances are asked for. -/
def isFinished (f : Filter) : Bool := f.completed.getD false || f.canceled.getD false

/-! ## As a document -/

/-- The names of the fields in documents, in order. -/
def fieldNames : List String :=
  ["active", "incidents", "completed", "canceled", "ids", "errorMessage", "startDate", "endDate",
   "activityId", "workflow", "version", "variable"]

def toJson (f : Filter) : Json :=
  .record <|
    Json.optionalMember "active" .bool f.active ++
    Json.optionalMember "incidents" .bool f.incidents ++
    Json.optionalMember "completed" .bool f.completed ++
    Json.optionalMember "canceled" .bool f.canceled ++
    Json.optionalMember "ids" (fun ids => .arr (ids.map .text)) f.ids ++
    Json.optionalMember "errorMessage" .text f.errorMessage ++
    Json.optionalMember "startDate" Date.toJson f.startDate ++
    Json.optionalMember "endDate" Date.toJson f.endDate ++
    Json.optionalMember "activityId" .text f.activityId ++
    Json.optionalMember "workflow" .text f.workflow ++
    Json.optionalMember "version" WorkflowVersion.toJson f.version ++
    Json.optionalMember "variable" VariableFilter.toJson f.variableFilter

def ofJson? (j : Json) : Option Filter := do
  let fields ← Json.openRecord? fieldNames j
  let active ← fields.optional "active" Json.bool?
  let incidents ← fields.optional "incidents" Json.bool?
  let completed ← fields.optional "completed" Json.bool?
  let canceled ← fields.optional "canceled" Json.bool?
  let ids ← fields.optional "ids" (Json.list? Json.text?)
  let errorMessage ← fields.optional "errorMessage" Json.text?
  let startDate ← fields.optional "startDate" Date.ofJson?
  let endDate ← fields.optional "endDate" Date.ofJson?
  let activityId ← fields.optional "activityId" Json.text?
  let workflow ← fields.optional "workflow" Json.text?
  let version ← fields.optional "version" WorkflowVersion.ofJson?
  let variableFilter ← fields.optional "variable" VariableFilter.ofJson?
  some { active, incidents, completed, canceled, ids, errorMessage, startDate, endDate,
         activityId, workflow, version, variableFilter }

end Filter

end InstanceConsole

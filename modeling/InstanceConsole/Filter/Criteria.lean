import InstanceConsole.Filter.Basic

/-!
# Criteria

A filter in the shape that the backend asks for: every flag is present, a day is the half-open
range of timestamps from its first moment to that of the next day, and only a numbered version
restricts anything. The last day of the calendar has no next one, so its range is open above.
-/

set_option autoImplicit false

namespace InstanceConsole

structure Criteria where
  running : Bool
  active : Bool
  incidents : Bool
  finished : Bool
  completed : Bool
  canceled : Bool
  ids : List String := []
  errorMessage : Option String := none
  startDateAfter : Option Timestamp := none
  startDateBefore : Option Timestamp := none
  endDateAfter : Option Timestamp := none
  endDateBefore : Option Timestamp := none
  activityId : Option String := none
  bpmnProcessId : Option String := none
  workflowVersion : Option UInt32 := none
  variableFilter : Option VariableFilter := none
  deriving DecidableEq, Repr

/-- The number of a version that has one. -/
def WorkflowVersion.number? : WorkflowVersion → Option UInt32
  | .all => none
  | .number n => some n

/-- The criteria of a filter. -/
def Filter.criteria (f : Filter) : Criteria where
  running := f.isRunning
  active := f.active.getD false
  incidents := f.incidents.getD false
  finished := f.isFinished
  completed := f.completed.getD false
  canceled := f.canceled.getD false
  ids := f.ids.getD []
  errorMessage := f.errorMessage
  startDateAfter := f.startDate.map .startOfDay
  startDateBefore := (f.startDate.bind Date.next?).map .startOfDay
  endDateAfter := f.endDate.map .startOfDay
  endDateBefore := (f.endDate.bind Date.next?).map .startOfDay
  activityId := f.activityId
  bpmnProcessId := f.workflow
  workflowVersion := f.version.bind WorkflowVersion.number?
  variableFilter := f.variableFilter

namespace Criteria

/-! ## As a document -/

/-- The names of the fields in documents, in order. -/
def fieldNames : List String :=
  ["running", "active", "incidents", "finished", "completed", "canceled", "ids", "errorMessage",
   "startDateAfter", "startDateBefore", "endDateAfter", "endDateBefore", "activityId",
   "bpmnProcessId", "workflowVersion", "variable"]

/-- The members of the document, which other documents may hold among their own. -/
def members (c : Criteria) : List (String × Json) :=
  [("running", .bool c.running), ("active", .bool c.active), ("incidents", .bool c.incidents),
   ("finished", .bool c.finished), ("completed", .bool c.completed),
   ("canceled", .bool c.canceled)] ++
  Json.listMember "ids" .text c.ids ++
  Json.optionalMember "errorMessage" .text c.errorMessage ++
  Json.optionalMember "startDateAfter" Timestamp.toJson c.startDateAfter ++
  Json.optionalMember "startDateBefore" Timestamp.toJson c.startDateBefore ++
  Json.optionalMember "endDateAfter" Timestamp.toJson c.endDateAfter ++
  Json.optionalMember "endDateBefore" Timestamp.toJson c.endDateBefore ++
  Json.optionalMember "activityId" .text c.activityId ++
  Json.optionalMember "bpmnProcessId" .text c.bpmnProcessId ++
  Json.optionalMember "workflowVersion" (fun n => .nat n.toNat) c.workflowVersion ++
  Json.optionalMember "variable" VariableFilter.toJson c.variableFilter

def toJson (c : Criteria) : Json := .record c.members

/-- The criteria among the fields of a record. -/
def ofFields? (fields : Json.Fields) : Option Criteria := do
  let running ← fields.required "running" Json.bool?
  let active ← fields.required "active" Json.bool?
  let incidents ← fields.required "incidents" Json.bool?
  let finished ← fields.required "finished" Json.bool?
  let completed ← fields.required "completed" Json.bool?
  let canceled ← fields.required "canceled" Json.bool?
  let ids ← fields.defaulted "ids" [] (Json.list? Json.text?)
  let errorMessage ← fields.optional "errorMessage" Json.text?
  let startDateAfter ← fields.optional "startDateAfter" Timestamp.ofJson?
  let startDateBefore ← fields.optional "startDateBefore" Timestamp.ofJson?
  let endDateAfter ← fields.optional "endDateAfter" Timestamp.ofJson?
  let endDateBefore ← fields.optional "endDateBefore" Timestamp.ofJson?
  let activityId ← fields.optional "activityId" Json.text?
  let bpmnProcessId ← fields.optional "bpmnProcessId" Json.text?
  let workflowVersion ← fields.optional "workflowVersion" Json.word?
  let variableFilter ← fields.optional "variable" VariableFilter.ofJson?
  some { running, active, incidents, finished, completed, canceled, ids, errorMessage,
         startDateAfter, startDateBefore, endDateAfter, endDateBefore, activityId, bpmnProcessId,
         workflowVersion, variableFilter }

def ofJson? (j : Json) : Option Criteria :=
  (Json.openRecord? fieldNames j).bind ofFields?

end Criteria

end InstanceConsole

import InstanceConsole.Calendar.Document
import InstanceConsole.Json.Record

/-!
# Workflow instances

What the backend reports: instances, and the first page of those that a selection asks for with
the number of them all.
-/

set_option autoImplicit false

namespace InstanceConsole

inductive InstanceState
  | active
  | incident
  | completed
  | canceled
  deriving DecidableEq, Repr

structure WorkflowInstance where
  id : String
  workflowId : String
  workflowName : Option String := none
  workflowVersion : Option UInt32 := none
  bpmnProcessId : Option String := none
  state : InstanceState
  startDate : Timestamp
  endDate : Option Timestamp := none
  deriving DecidableEq, Repr

/-- The instances of a selection: how many there are, and the first page of them. -/
structure InstancesDetails where
  totalCount : UInt64
  workflowInstances : List WorkflowInstance := []
  deriving DecidableEq, Repr

namespace InstanceState

def name : InstanceState → String
  | .active => "ACTIVE"
  | .incident => "INCIDENT"
  | .completed => "COMPLETED"
  | .canceled => "CANCELED"

def ofName? (s : String) : Option InstanceState :=
  [.active, .incident, .completed, .canceled].find? (·.name = s)

def toJson (s : InstanceState) : Json := .text s.name

def ofJson? (j : Json) : Option InstanceState := (Json.caseName? j).bind ofName?

end InstanceState

namespace WorkflowInstance

def toJson (i : WorkflowInstance) : Json :=
  .record <|
    [("id", .text i.id), ("workflowId", .text i.workflowId)] ++
    Json.optionalMember "workflowName" .text i.workflowName ++
    Json.optionalMember "workflowVersion" (fun n => .nat n.toNat) i.workflowVersion ++
    Json.optionalMember "bpmnProcessId" .text i.bpmnProcessId ++
    [("state", i.state.toJson), ("startDate", i.startDate.toJson)] ++
    Json.optionalMember "endDate" Timestamp.toJson i.endDate

def fieldNames : List String :=
  ["id", "workflowId", "workflowName", "workflowVersion", "bpmnProcessId", "state", "startDate",
   "endDate"]

def ofJson? (j : Json) : Option WorkflowInstance := do
  let fields ← Json.openRecord? fieldNames j
  let id ← fields.required "id" Json.text?
  let workflowId ← fields.required "workflowId" Json.text?
  let workflowName ← fields.optional "workflowName" Json.text?
  let workflowVersion ← fields.optional "workflowVersion" Json.word?
  let bpmnProcessId ← fields.optional "bpmnProcessId" Json.text?
  let state ← fields.required "state" InstanceState.ofJson?
  let startDate ← fields.required "startDate" Timestamp.ofJson?
  let endDate ← fields.optional "endDate" Timestamp.ofJson?
  some { id, workflowId, workflowName, workflowVersion, bpmnProcessId, state, startDate, endDate }

end WorkflowInstance

namespace InstancesDetails

def toJson (d : InstancesDetails) : Json :=
  .record [("totalCount", .nat d.totalCount.toNat),
    ("workflowInstances", .arr (d.workflowInstances.map WorkflowInstance.toJson))]

def ofJson? (j : Json) : Option InstancesDetails := do
  let fields ← Json.openRecord? ["totalCount", "workflowInstances"] j
  let totalCount ← fields.required "totalCount" Json.count?
  let workflowInstances ←
    fields.defaulted "workflowInstances" [] (Json.list? WorkflowInstance.ofJson?)
  some { totalCount, workflowInstances }

end InstancesDetails

end InstanceConsole

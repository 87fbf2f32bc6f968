import InstanceConsole.Selection.Fragment
import InstanceConsole.Selection.Instance
import InstanceConsole.Selection.Query

/-!
# Saved selections

A selection has an id, the queries that it asks for, and what the backend answered to them.
-/

set_option autoImplicit false

namespace InstanceConsole

structure Selection where
  selectionId : UInt64
  totalCount : UInt64
  queries : List SelectionQuery := []
  workflowInstances : List WorkflowInstance := []
  deriving DecidableEq, Repr

namespace Selection

/-- A selection of what a payload asked for, with the answer to it. -/
def ofAnswer (selectionId : UInt64) (payload : SelectionPayload) (details : InstancesDetails) :
    Selection where
  selectionId
  totalCount := details.totalCount
  queries := payload.queries
  workflowInstances := details.workflowInstances

/-- The same selection after a new payload and its answer; only the id stays. -/
def merged (s : Selection) (payload : SelectionPayload) (details : InstancesDetails) : Selection :=
  ofAnswer s.selectionId payload details

/-! ## As a document -/

def toJson (s : Selection) : Json :=
  .record [("selectionId", .nat s.selectionId.toNat), ("totalCount", .nat s.totalCount.toNat),
    ("queries", .arr (s.queries.map SelectionQuery.toJson)),
    ("workflowInstances", .arr (s.workflowInstances.map WorkflowInstance.toJson))]

/-- A selection inside `level` arrays and objects. -/
def ofJson? (level : Nat) (j : Json) : Option Selection := do
  let fields ← Json.openRecord? ["selectionId", "totalCount", "queries", "workflowInstances"] j
  let selectionId ← fields.required "selectionId" Json.count?
  let totalCount ← fields.required "totalCount" Json.count?
  let queries ← fields.defaulted "queries" [] (Json.list? (SelectionQuery.ofJson? (level + 2)))
  let workflowInstances ←
    fields.defaulted "workflowInstances" [] (Json.list? WorkflowInstance.ofJson?)
  some { selectionId, totalCount, queries, workflowInstances }

end Selection

/-- The query for what is picked in a fragment while a filter is in force: without `all`, the
picked ids take the place of those of the filter. -/
def SelectionQuery.ofFragment (filter : Filter) (fragment : SelectionFragment) : SelectionQuery :=
  let criteria := filter.criteria
  { criteria := if fragment.all then criteria else { criteria with ids := fragment.ids.toList }
    excludeIds := fragment.excludeIds.toList }

/-- The payload for a fragment: for a new selection, or for an existing one together with the
queries that it has. -/
def SelectionPayload.ofFragment (filter : Filter) (fragment : SelectionFragment)
    (existing : Option Selection) : SelectionPayload where
  selectionId := existing.map (·.selectionId)
  queries := (existing.map (·.queries)).getD [] ++ [.ofFragment filter fragment]

end InstanceConsole

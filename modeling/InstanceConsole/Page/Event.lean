import InstanceConsole.Filter.Patch
import InstanceConsole.Page.Location
import InstanceConsole.Page.Snapshot

/-!
# What happens to the page

Events come from the router, the panels and the diagram. Fetches go to the backend, and come back
as completions.
-/

set_option autoImplicit false

namespace InstanceConsole

inductive PageEvent
  /-- The router has moved to a location. -/
  | locationChanged (location : Location)
  /-- Fields of the filter have changed. -/
  | filterChanged (patch : FilterPatch)
  /-- The default filter is asked for. -/
  | filterReset
  | workflowChanged (workflow : WorkflowRef)
  /-- The diagram has been drawn. -/
  | flowNodesReady (nodes : FlowNodes)
  /-- The selection in progress has been replaced. -/
  | updateSelection (fragment : SelectionFragment)
  /-- An instance is picked, or dropped. -/
  | toggleInstance (id : String)
  /-- All instances that meet the filter are picked. -/
  | selectAll
  /-- The selection in progress becomes a new selection. -/
  | addNewSelection
  /-- The selection in progress joins a selection. -/
  | addToSelection (id : UInt64)
  /-- The selection in progress joins the open selection. -/
  | addToOpenSelection
  | toggleOpenSelection (id : UInt64)
  | removeSelection (id : UInt64)
  | dismissError
  deriving DecidableEq, Repr

/-- A question to the backend: how many instances meet some criteria, or which instances a new
selection or the extension of a selection holds. -/
inductive Fetch
  | count (token : UInt64) (criteria : Criteria)
  | newSelection (payload : SelectionPayload)
  | extension (id : UInt64) (payload : SelectionPayload)
  deriving DecidableEq, Repr

/-- A question with its answer. -/
inductive Completion
  | count (token : UInt64) (result : Except ClientError UInt64)
  | newSelection (payload : SelectionPayload) (result : Except ClientError InstancesDetails)
  | extension (id : UInt64) (payload : SelectionPayload)
      (result : Except ClientError InstancesDetails)

/-- What waits to be applied to the page. -/
inductive PageMessage
  | event (event : PageEvent)
  | completion (completion : Completion)

/-- What answers fetches, from a state that may change with each of them. -/
structure Backend (σ : Type) where
  /-- How many instances meet some criteria. -/
  count : σ → Criteria → Except ClientError UInt64 × σ
  /-- The instances that a payload asks for. -/
  details : σ → SelectionPayload → Except ClientError InstancesDetails × σ

/-- The completion of a fetch. -/
def Backend.complete {σ : Type} (backend : Backend σ) (state : σ) : Fetch → Completion × σ
  | .count token criteria =>
      let (result, state) := backend.count state criteria
      (.count token result, state)
  | .newSelection payload =>
      let (result, state) := backend.details state payload
      (.newSelection payload result, state)
  | .extension id payload =>
      let (result, state) := backend.details state payload
      (.extension id payload result, state)

end InstanceConsole

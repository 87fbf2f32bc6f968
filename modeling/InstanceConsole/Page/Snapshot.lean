import InstanceConsole.Client.Error
import InstanceConsole.Page.Activity
import InstanceConsole.Store.State

/-!
# Snapshots of the page

What the page shows at one moment, and the transitions between such moments. A transition gives a
whole new snapshot, so the counts of the selections never lag behind the selections.
-/

set_option autoImplicit false

namespace InstanceConsole

/-- The workflow that the user has picked. -/
structure WorkflowRef where
  id : String
  name : Option String := none
  deriving DecidableEq, Repr

inductive PageError
  | selectionNotFound (id : UInt64)
  | noOpenSelection
  | emptySelection
  | fetch (error : ClientError)
  | detached
  deriving DecidableEq, Repr

def PageError.message : PageError → String
  | .selectionNotFound id => "selection " ++ Numeral.text id.toNat ++ " does not exist"
  | .noOpenSelection => "no selection is open"
  | .emptySelection => "no instances are selected"
  | .fetch error => "failed to fetch instances: " ++ error.message
  | .detached => "instances page is detached"

/-- A selection that is not in the list, as the page reports it. -/
def PageError.ofSelectionError : SelectionError → PageError
  | .notFound id => .selectionNotFound id

structure Snapshot where
  activityIds : List ActivityOption := []
  filter : Filter := {}
  filterCount : UInt64 := 0
  openSelection : Option UInt64 := none
  /-- The selection in progress. -/
  selection : SelectionFragment := {}
  selections : SelectionList := {}
  workflow : Option WorkflowRef := none
  errorMessage : Option String := none
  running : UInt64 := 0
  incidents : UInt64 := 0
  deriving DecidableEq, Repr

namespace WorkflowRef

def toJson (w : WorkflowRef) : Json :=
  .record ([("id", .text w.id)] ++ Json.optionalMember "name" .text w.name)

def ofJson? (j : Json) : Option WorkflowRef := do
  let fields ← Json.openRecord? ["id", "name"] j
  let id ← fields.required "id" Json.text?
  let name ← fields.optional "name" Json.text?
  some { id, name }

end WorkflowRef

namespace Snapshot

/-- The first snapshot: what was stored, and no filter until the location has been read. -/
def ofStored (s : StoredState) : Snapshot where
  filterCount := s.filterCount
  selections := s.selectionList
  running := s.running
  incidents := s.incidents

/-! ## Transitions -/

def withFilter (s : Snapshot) (filter : Filter) : Snapshot := { s with filter }

def withFilterCount (s : Snapshot) (filterCount : UInt64) : Snapshot := { s with filterCount }

def withWorkflow (s : Snapshot) (workflow : WorkflowRef) : Snapshot :=
  { s with workflow := some workflow }

/-- The options for the tasks of a diagram, in the place of those before. -/
def withFlowNodes (s : Snapshot) (nodes : FlowNodes) : Snapshot :=
  { s with activityIds := nodes.activityOptions }

def withFragment (s : Snapshot) (selection : SelectionFragment) : Snapshot := { s with selection }

/-- A new selection, which is opened; the selection in progress starts afresh. -/
def withNewSelection (s : Snapshot) (payload : SelectionPayload) (details : InstancesDetails) :
    Snapshot :=
  let selections := s.selections.withNew payload details
  { s with
    selections
    openSelection := selections.selections.head?.map (·.selectionId)
    selection := {} }

/-- A selection with new queries and instances; the selection in progress starts afresh. -/
def withMergedSelection (s : Snapshot) (id : UInt64) (payload : SelectionPayload)
    (details : InstancesDetails) : Except PageError Snapshot :=
  match s.selections.withMerged id payload details with
  | .error e => .error (.ofSelectionError e)
  | .ok selections => .ok { s with selections, selection := {} }

/-- The snapshot without a selection, which is closed if it is the open one. -/
def withoutSelection (s : Snapshot) (id : UInt64) : Except PageError Snapshot :=
  match s.selections.without id with
  | .error e => .error (.ofSelectionError e)
  | .ok selections =>
      .ok { s with selections, openSelection := s.openSelection.filter (· ≠ id) }

/-- Opens a selection, or closes it when it is open. -/
def withOpenToggled (s : Snapshot) (id : UInt64) : Except PageError Snapshot :=
  match s.selections.get? id with
  | none => .error (.selectionNotFound id)
  | some _ =>
      .ok { s with openSelection := if s.openSelection = some id then none else some id }

def withError (s : Snapshot) (error : PageError) : Snapshot :=
  { s with errorMessage := some error.message }

def withoutError (s : Snapshot) : Snapshot := { s with errorMessage := none }

/-! ## As a document -/

/-- The members of the document, which other documents may hold among their own. -/
def members (s : Snapshot) : List (String × Json) :=
  [("activityIds", .arr (s.activityIds.map ActivityOption.toJson)),
   ("filter", s.filter.toJson),
   ("filterCount", .nat s.filterCount.toNat),
   ("openSelection", Json.orNull (fun n => .nat n.toNat) s.openSelection),
   ("selection", s.selection.toJson)] ++
  s.selections.members ++
  [("workflow", Json.orNull WorkflowRef.toJson s.workflow),
   ("errorMessage", Json.orNull .text s.errorMessage),
   ("running", .nat s.running.toNat),
   ("incidents", .nat s.incidents.toNat)]

def toJson (s : Snapshot) : Json := .record s.members

end Snapshot

end InstanceConsole

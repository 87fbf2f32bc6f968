import InstanceConsole.Page.Snapshot

/-!
# Views of a snapshot

What the header and the diagram pane of the page show.
-/

set_option autoImplicit false

namespace InstanceConsole

/-- The numbers in the header of the page. -/
structure HeaderView where
  running : UInt64
  incidents : UInt64
  filters : UInt64
  selections : UInt64
  deriving DecidableEq, Repr

def HeaderView.toJson (h : HeaderView) : Json :=
  .record [("running", .nat h.running.toNat), ("incidents", .nat h.incidents.toNat),
    ("filters", .nat h.filters.toNat), ("selections", .nat h.selections.toNat)]

namespace Snapshot

def header (s : Snapshot) : HeaderView where
  running := s.running
  incidents := s.incidents
  filters := s.filterCount
  selections := s.selections.instancesInSelectionsCount

/-- The title of the diagram pane while no workflow is picked. -/
def defaultPaneTitle : String := "Workflow"

/-- The title of the diagram pane: the name of the workflow, or its id when it has none. -/
def paneTitle (s : Snapshot) : String :=
  match s.workflow with
  | none => defaultPaneTitle
  | some workflow => (workflow.name.filter (· ≠ "")).getD workflow.id

/-- A diagram is shown once a workflow is picked. -/
def showsDiagram (s : Snapshot) : Bool := s.workflow.isSome

end Snapshot

end InstanceConsole

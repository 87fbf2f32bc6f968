import InstanceConsole.Json.Record

/-!
# Activity options

The flow nodes of a process diagram, and the tasks among them as the options of the activity
filter: each with its node's id and a label, sorted by label and then by id.
-/

set_option autoImplicit false

namespace InstanceConsole

inductive FlowNodeType
  | task
  | startEvent
  | endEvent
  | event
  | exclusiveGateway
  | parallelGateway
  | gateway
  | subProcess
  | other
  deriving DecidableEq, Repr

structure FlowNode where
  type : FlowNodeType
  name : Option String := none
  deriving DecidableEq, Repr

namespace FlowNodeType

def name : FlowNodeType → String
  | .task => "TASK"
  | .startEvent => "START_EVENT"
  | .endEvent => "END_EVENT"
  | .event => "EVENT"
  | .exclusiveGateway => "EXCLUSIVE_GATEWAY"
  | .parallelGateway => "PARALLEL_GATEWAY"
  | .gateway => "GATEWAY"
  | .subProcess => "SUB_PROCESS"
  | .other => "OTHER"

/-- The types that have a name of their own. -/
def named : List FlowNodeType :=
  [.task, .startEvent, .endEvent, .event, .exclusiveGateway, .parallelGateway, .gateway,
   .subProcess]

/-- The type with a name; any other name stands for some other type. -/
def ofName (s : String) : FlowNodeType := (named.find? (·.name = s)).getD .other

def toJson (t : FlowNodeType) : Json := .text t.name

def ofJson? (j : Json) : Option FlowNodeType := (Json.caseName? j).map ofName

end FlowNodeType

namespace FlowNode

def toJson (n : FlowNode) : Json :=
  .record ([("type", n.type.toJson)] ++ Json.optionalMember "name" .text n.name)

def ofJson? (j : Json) : Option FlowNode := do
  let fields ← Json.openRecord? ["type", "name"] j
  let type ← fields.required "type" FlowNodeType.ofJson?
  let name ← fields.optional "name" Json.text?
  some { type, name }

end FlowNode

/-! ## The nodes of a diagram -/

/-- The flow nodes of a diagram by their ids. -/
structure FlowNodes where
  entries : List (String × FlowNode)
  distinct : (entries.map (·.1)).Nodup
  deriving DecidableEq, Repr

namespace FlowNodes

/-- The last entry of each id. -/
def lastEntries : List (String × FlowNode) → List (String × FlowNode)
  | [] => []
  | entry :: rest =>
      if entry.1 ∈ rest.map (·.1) then lastEntries rest else entry :: lastEntries rest

theorem mem_map_lastEntries (id : String) (entries : List (String × FlowNode)) :
    id ∈ (lastEntries entries).map (·.1) ↔ id ∈ entries.map (·.1) := by
  induction entries with
  | nil => simp [lastEntries]
  | cons entry rest ih =>
      simp only [lastEntries]
      split
      · next h =>
          rw [ih, List.map_cons, List.mem_cons]
          exact ⟨.inr, fun h' => h'.elim (fun h' => h' ▸ h) fun h' => h'⟩
      · rw [List.map_cons, List.map_cons, List.mem_cons, List.mem_cons, ih]

theorem nodup_lastEntries (entries : List (String × FlowNode)) :
    ((lastEntries entries).map (·.1)).Nodup := by
  induction entries with
  | nil => simp [lastEntries]
  | cons entry rest ih =>
      simp only [lastEntries]
      split
      · exact ih
      · next h =>
          rw [List.map_cons, List.nodup_cons]
          exact ⟨fun h' => h ((mem_map_lastEntries _ _).mp h'), ih⟩

/-- The nodes of some entries; of several with one id the last counts. -/
def ofEntries (entries : List (String × FlowNode)) : FlowNodes :=
  ⟨lastEntries entries, nodup_lastEntries entries⟩

def toJson (nodes : FlowNodes) : Json :=
  .record (nodes.entries.map fun entry => (entry.1, entry.2.toJson))

/-- An object from ids to nodes. -/
def ofJson? : Json → Option FlowNodes
  | .obj members => do
      let named ← Json.named? members
      let entries ← named.mapM fun m => (FlowNode.ofJson? m.2).map (m.1, ·)
      some (ofEntries entries)
  | _ => none

end FlowNodes

/-! ## Options -/

structure ActivityOption where
  value : String
  label : String
  deriving DecidableEq, Repr

namespace ActivityOption

/-- The label of a task without a name. -/
def unnamedTask : String := "Unnamed task"

/-- The option of a node: its id, labelled with its name unless that is absent or empty. -/
def ofNode (id : String) (node : FlowNode) : ActivityOption where
  value := id
  label := (node.name.filter (· ≠ "")).getD unnamedTask

/-- The order of options: by label, and by id where labels are the same. -/
def le (a b : ActivityOption) : Bool :=
  a.label < b.label || (a.label = b.label && a.value ≤ b.value)

def toJson (o : ActivityOption) : Json :=
  .record [("value", .text o.value), ("label", .text o.label)]

end ActivityOption

/-- The options for the tasks among the nodes, in order. -/
def FlowNodes.activityOptions (nodes : FlowNodes) : List ActivityOption :=
  ((nodes.entries.filter (·.2.type = .task)).map fun entry =>
    ActivityOption.ofNode entry.1 entry.2).mergeSort ActivityOption.le

end InstanceConsole

import InstanceConsole.Selection.List

/-!
# The stored state

What a console keeps from one session to the next, and partial updates of it. A document of the
state may leave out any field, and names that are no field are ignored.
-/

set_option autoImplicit false

namespace InstanceConsole

structure StoredState where
  filter : Option Filter := none
  filterCount : UInt64 := 0
  selections : List Selection := []
  rollingSelectionIndex : UInt64 := 0
  selectionCount : UInt64 := 0
  instancesInSelectionsCount : UInt64 := 0
  running : UInt64 := 0
  incidents : UInt64 := 0
  deriving DecidableEq, Repr

/-- An update of the stored state: fields without a value stay as they are. -/
structure StatePatch where
  filter : Option Filter := none
  filterCount : Option UInt64 := none
  selections : Option (List Selection) := none
  rollingSelectionIndex : Option UInt64 := none
  selectionCount : Option UInt64 := none
  instancesInSelectionsCount : Option UInt64 := none
  running : Option UInt64 := none
  incidents : Option UInt64 := none
  deriving DecidableEq, Repr

namespace StatePatch

def ofFilter (f : Filter) : StatePatch := { filter := some f }

def ofFilterCount (n : UInt64) : StatePatch := { filterCount := some n }

/-- All four fields of a list of selections. -/
def ofSelections (l : SelectionList) : StatePatch :=
  { selections := some l.selections
    rollingSelectionIndex := some l.rollingSelectionIndex
    selectionCount := some l.selectionCount
    instancesInSelectionsCount := some l.instancesInSelectionsCount }

def isEmpty (p : StatePatch) : Bool := decide (p = {})

end StatePatch

namespace StoredState

/-- The stored selections as a list whose counts agree with them. -/
def selectionList (s : StoredState) : SelectionList :=
  .restore s.selections s.rollingSelectionIndex

def apply (s : StoredState) (p : StatePatch) : StoredState where
  filter := p.filter <|> s.filter
  filterCount := p.filterCount.getD s.filterCount
  selections := p.selections.getD s.selections
  rollingSelectionIndex := p.rollingSelectionIndex.getD s.rollingSelectionIndex
  selectionCount := p.selectionCount.getD s.selectionCount
  instancesInSelectionsCount := p.instancesInSelectionsCount.getD s.instancesInSelectionsCount
  running := p.running.getD s.running
  incidents := p.incidents.getD s.incidents

/-! ## As a document -/

/-- The names of the fields in documents, in order. -/
def fieldNames : List String :=
  ["filter", "filterCount", "selections", "rollingSelectionIndex", "selectionCount",
   "instancesInSelectionsCount", "running", "incidents"]

def toJson (s : StoredState) : Json :=
  .record <|
    Json.optionalMember "filter" Filter.toJson s.filter ++
    [("filterCount", .nat s.filterCount.toNat),
     ("selections", .arr (s.selections.map Selection.toJson)),
     ("rollingSelectionIndex", .nat s.rollingSelectionIndex.toNat),
     ("selectionCount", .nat s.selectionCount.toNat),
     ("instancesInSelectionsCount", .nat s.instancesInSelectionsCount.toNat),
     ("running", .nat s.running.toNat),
     ("incidents", .nat s.incidents.toNat)]

def ofJson? (j : Json) : Option StoredState := do
  let fields ← Json.openRecord? fieldNames j
  let filter ← fields.optional "filter" Filter.ofJson?
  let filterCount ← fields.defaulted "filterCount" 0 Json.count?
  let selections ← fields.defaulted "selections" [] (Json.list? (Selection.ofJson? 2))
  let rollingSelectionIndex ← fields.defaulted "rollingSelectionIndex" 0 Json.count?
  let selectionCount ← fields.defaulted "selectionCount" 0 Json.count?
  let instancesInSelectionsCount ← fields.defaulted "instancesInSelectionsCount" 0 Json.count?
  let running ← fields.defaulted "running" 0 Json.count?
  let incidents ← fields.defaulted "incidents" 0 Json.count?
  some { filter, filterCount, selections, rollingSelectionIndex, selectionCount,
         instancesInSelectionsCount, running, incidents }

end StoredState

end InstanceConsole

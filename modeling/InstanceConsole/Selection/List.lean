import InstanceConsole.Selection.Basic
import InstanceConsole.Selection.Counter

/-!
# The list of saved selections

The selections, newest first, with how many they are, how many instances they hold together, and
the greatest id given out so far. A new selection gets the next id; an id is not given out again.
-/

set_option autoImplicit false

namespace InstanceConsole

structure SelectionList where
  selections : List Selection := []
  rollingSelectionIndex : UInt64 := 0
  selectionCount : UInt64 := 0
  instancesInSelectionsCount : UInt64 := 0
  deriving DecidableEq, Repr

inductive SelectionError
  | notFound (id : UInt64)
  deriving DecidableEq, Repr

def SelectionError.message : SelectionError → String
  | .notFound id => "selection not found: " ++ Numeral.text id.toNat

namespace SelectionList

/-- How many instances some selections hold together. -/
def totalInstances (selections : List Selection) : UInt64 :=
  selections.foldl (fun sum s => Counter.add sum s.totalCount) 0

/-- The greatest id of some selections, and of a number given out before. -/
def highestId (atLeast : UInt64) (selections : List Selection) : UInt64 :=
  selections.foldl (fun highest s => max highest s.selectionId) atLeast

/-- The list of some selections. Both counts are taken from the selections, and the index is
raised to the greatest id. -/
def restore (selections : List Selection) (rollingSelectionIndex : UInt64) : SelectionList where
  selections
  rollingSelectionIndex := highestId rollingSelectionIndex selections
  selectionCount := Counter.ofNat selections.length
  instancesInSelectionsCount := totalInstances selections

/-- The first selection with an id. -/
def get? (l : SelectionList) (id : UInt64) : Option Selection :=
  l.selections.find? (·.selectionId == id)

/-- The place of the first selection with an id. -/
def position (l : SelectionList) (id : UInt64) : Nat :=
  l.selections.findIdx (·.selectionId == id)

/-- A new selection with the next id, in front of the others. -/
def withNew (l : SelectionList) (payload : SelectionPayload) (details : InstancesDetails) :
    SelectionList :=
  let id := Counter.add l.rollingSelectionIndex 1
  { selections := .ofAnswer id payload details :: l.selections
    rollingSelectionIndex := id
    selectionCount := Counter.add l.selectionCount 1
    instancesInSelectionsCount := Counter.add l.instancesInSelectionsCount details.totalCount }

/-- A selection with new queries and instances, in its place. -/
def withMerged (l : SelectionList) (id : UInt64) (payload : SelectionPayload)
    (details : InstancesDetails) : Except SelectionError SelectionList :=
  match l.get? id with
  | none => .error (.notFound id)
  | some previous => .ok
      { l with
        selections := l.selections.set (l.position id) (previous.merged payload details)
        instancesInSelectionsCount :=
          Counter.add (Counter.sub l.instancesInSelectionsCount previous.totalCount)
            details.totalCount }

/-- The list without a selection. -/
def without (l : SelectionList) (id : UInt64) : Except SelectionError SelectionList :=
  match l.get? id with
  | none => .error (.notFound id)
  | some removed => .ok
      { l with
        selections := l.selections.eraseIdx (l.position id)
        selectionCount := Counter.sub l.selectionCount 1
        instancesInSelectionsCount :=
          Counter.sub l.instancesInSelectionsCount removed.totalCount }

/-! ## As a document -/

/-- The members of the document, which other documents may hold among their own. -/
def members (l : SelectionList) : List (String × Json) :=
  [("selections", .arr (l.selections.map Selection.toJson)),
   ("rollingSelectionIndex", .nat l.rollingSelectionIndex.toNat),
   ("selectionCount", .nat l.selectionCount.toNat),
   ("instancesInSelectionsCount", .nat l.instancesInSelectionsCount.toNat)]

def toJson (l : SelectionList) : Json := .record l.members

end SelectionList

end InstanceConsole

import InstanceConsole.Json.Record
import InstanceConsole.Selection.IdSet

/-!
# The selection in progress

What a user has picked in the list of instances, before it is saved: some instances by their ids,
or all that meet the filter but some.
-/

set_option autoImplicit false

namespace InstanceConsole

structure SelectionFragment where
  ids : IdSet := .empty
  excludeIds : IdSet := .empty
  all : Bool := false
  deriving DecidableEq, Repr

namespace SelectionFragment

/-- Picks an instance, or drops it when it is picked. -/
def toggle (f : SelectionFragment) (id : String) : SelectionFragment :=
  if f.all then { f with excludeIds := f.excludeIds.toggle id }
  else { f with ids := f.ids.toggle id }

/-- All that meet the filter, and no exceptions. -/
def selectAll (_ : SelectionFragment) : SelectionFragment := { all := true }

def isSelected (f : SelectionFragment) (id : String) : Bool :=
  if f.all then decide (id ∉ f.excludeIds) else decide (id ∈ f.ids)

/-- Whether nothing is picked. -/
def isEmpty (f : SelectionFragment) : Bool := !f.all && f.ids.isEmpty

/-! ## As a document -/

def toJson (f : SelectionFragment) : Json :=
  .record [("ids", f.ids.toJson), ("excludeIds", f.excludeIds.toJson), ("all", .bool f.all)]

def ofJson? (j : Json) : Option SelectionFragment := do
  let fields ← Json.openRecord? ["ids", "excludeIds", "all"] j
  let ids ← fields.defaulted "ids" .empty IdSet.ofJson?
  let excludeIds ← fields.defaulted "excludeIds" .empty IdSet.ofJson?
  let all ← fields.defaulted "all" false Json.bool?
  some { ids, excludeIds, all }

end SelectionFragment

end InstanceConsole

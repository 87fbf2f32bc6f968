import InstanceConsole.Filter.Basic

/-!
# Changes to a filter

A patch says for each field whether it keeps its value, is cleared, or is set. A flag can be set
but not cleared. Merging gives a normalized filter, so setting a field to nothing clears it too.
-/

set_option autoImplicit false

namespace InstanceConsole

/-- What happens to an optional value. -/
inductive Change (α : Type)
  | keep
  | clear
  | set (value : α)
  deriving DecidableEq, Repr

namespace Change

def apply {α : Type} : Change α → Option α → Option α
  | .keep, current => current
  | .clear, _ => none
  | .set value, _ => some value

/-- Sets a value that is there, and keeps the current one when it is not. -/
def ofOption {α : Type} : Option α → Change α
  | none => .keep
  | some value => .set value

/-- Sets a value that is there, and clears the current one when it is not. -/
def replace {α : Type} : Option α → Change α
  | none => .clear
  | some value => .set value

end Change

structure FilterPatch where
  active : Option Bool := none
  incidents : Option Bool := none
  completed : Option Bool := none
  canceled : Option Bool := none
  ids : Change (List String) := .keep
  errorMessage : Change String := .keep
  startDate : Change Date := .keep
  endDate : Change Date := .keep
  activityId : Change String := .keep
  workflow : Change String := .keep
  version : Change WorkflowVersion := .keep
  variableFilter : Change VariableFilter := .keep
  deriving DecidableEq, Repr

namespace FilterPatch

/-- Whether every field keeps its value. -/
def isEmpty (p : FilterPatch) : Bool := decide (p = {})

/-- Sets every field that a filter sets. -/
def ofFilter (f : Filter) : FilterPatch where
  active := f.active
  incidents := f.incidents
  completed := f.completed
  canceled := f.canceled
  ids := .ofOption f.ids
  errorMessage := .ofOption f.errorMessage
  startDate := .ofOption f.startDate
  endDate := .ofOption f.endDate
  activityId := .ofOption f.activityId
  workflow := .ofOption f.workflow
  version := .ofOption f.version
  variableFilter := .ofOption f.variableFilter

end FilterPatch

/-- The filter with the fields that a patch touches replaced, normalized. -/
def Filter.merge (f : Filter) (p : FilterPatch) : Filter :=
  Filter.normalized
    { active := p.active <|> f.active
      incidents := p.incidents <|> f.incidents
      completed := p.completed <|> f.completed
      canceled := p.canceled <|> f.canceled
      ids := p.ids.apply f.ids
      errorMessage := p.errorMessage.apply f.errorMessage
      startDate := p.startDate.apply f.startDate
      endDate := p.endDate.apply f.endDate
      activityId := p.activityId.apply f.activityId
      workflow := p.workflow.apply f.workflow
      version := p.version.apply f.version
      variableFilter := p.variableFilter.apply f.variableFilter }

end InstanceConsole

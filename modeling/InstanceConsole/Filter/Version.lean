import InstanceConsole.Json.Value
import InstanceConsole.Text.Numeral

/-!
# Workflow versions

A filter asks for every version of a workflow or for one, by number.
-/

set_option autoImplicit false

namespace InstanceConsole

inductive WorkflowVersion
  | all
  | number (value : UInt32)
  deriving DecidableEq, Repr

namespace WorkflowVersion

/-- `all`, or the number. -/
def text : WorkflowVersion → String
  | .all => "all"
  | .number n => Numeral.text n.toNat

/-- Reads `all` or a number of 32 bits, which may have a plus sign and zeros in front. -/
def ofText? (s : String) : Option WorkflowVersion :=
  if s = "all" then some .all
  else (Numeral.unsigned? UInt32.size s.toList).map fun n => .number (UInt32.ofNat n)

def toJson (v : WorkflowVersion) : Json := .text v.text

def ofJson? (j : Json) : Option WorkflowVersion := j.text?.bind ofText?

end WorkflowVersion

end InstanceConsole

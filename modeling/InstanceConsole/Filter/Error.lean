/-!
# Why a filter is refused
-/

set_option autoImplicit false

namespace InstanceConsole

/-- The fields of a filter that hold a date. -/
inductive DateField
  | startDate
  | endDate
  deriving DecidableEq, Repr

def DateField.name : DateField → String
  | .startDate => "startDate"
  | .endDate => "endDate"

inductive FilterError
  /-- The query string has no filter. -/
  | missing
  /-- The filter in the query string is not a filter document. What the JSON reader finds wrong
  with it is left out. -/
  | malformed
  /-- No field of the filter is set. -/
  | empty
  | invalidDate (field : DateField) (value : String)
  | invalidVersion (value : String)
  /-- The variable is not a document of a variable filter. What the JSON reader finds wrong with it
  is left out here too. -/
  | invalidVariable
  deriving DecidableEq, Repr

/-- The message of an error, up to the words of the JSON reader. Where there are such words, they
follow the message after a colon and depend only on the text that was read. -/
def FilterError.message : FilterError → String
  | .missing => "query string has no filter parameter"
  | .malformed => "filter is not a valid JSON object"
  | .empty => "filter has no criteria"
  | .invalidDate field value => "invalid date in " ++ field.name ++ ": " ++ value
  | .invalidVersion value => "invalid workflow version: " ++ value
  | .invalidVariable => "invalid variable filter"

end InstanceConsole

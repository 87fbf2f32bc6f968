import InstanceConsole.Json.Value

/-!
# Records in documents

A record is written as an object with its field names, or as an array of its fields in order.
`record?` gives access to the fields of either form, and `required`, `optional` and `defaulted`
say what an absent field means.
-/

set_option autoImplicit false

namespace InstanceConsole.Json

/-- The value of each field that is there. -/
abbrev Fields := String → Option Json

/-- The members of an object by their names, if every name is a text. -/
def named? (members : List (JsonText × Json)) : Option (List (String × Json)) :=
  members.mapM fun m => m.1.map (·, m.2)

/-- The fields of a record. A field that stands twice is refused, as are, in a closed record,
names that are no field. In an array, fields may be left out at the end, and nothing may follow
the last one. -/
def record? (names : List String) (closed : Bool) : Json → Option Fields
  | .obj members => do
      let named ← named? members
      let known := named.filter fun m => m.1 ∈ names
      guard (known.map (·.1)).Nodup
      guard (closed = true → known.length = named.length)
      some fun name => known.lookup name
  | .arr items => do
      guard (items.length ≤ names.length)
      some fun name => (names.zip items).lookup name
  | _ => none

/-- A record whose other names are ignored. -/
def openRecord? (names : List String) (j : Json) : Option Fields := record? names false j

/-- A record that allows no other names. -/
def closedRecord? (names : List String) (j : Json) : Option Fields := record? names true j

/-- A field that must be there. -/
def Fields.required {α : Type} (fields : Fields) (name : String) (decode : Json → Option α) :
    Option α :=
  (fields name).bind decode

/-- A value or `null`. -/
def nullable {α : Type} (decode : Json → Option α) : Json → Option (Option α)
  | .null => some none
  | j => (decode j).map some

/-- A field that may be absent or `null`. -/
def Fields.optional {α : Type} (fields : Fields) (name : String) (decode : Json → Option α) :
    Option (Option α) :=
  match fields name with
  | none => some none
  | some j => nullable decode j

/-- A field that has a default when it is absent. -/
def Fields.defaulted {α : Type} (fields : Fields) (name : String) (default : α)
    (decode : Json → Option α) : Option α :=
  match fields name with
  | none => some default
  | some j => decode j

/-- The name of a case: a string, or an object with that one key and the value `null`. -/
def caseName? : Json → Option String
  | .str s => s
  | .obj [(s, .null)] => s
  | _ => none

end InstanceConsole.Json

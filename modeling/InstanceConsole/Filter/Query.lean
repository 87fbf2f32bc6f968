import InstanceConsole.Filter.Wire
import InstanceConsole.Web.FormEncoding

/-!
# Filters in query strings

A query string carries a filter as the JSON text of its wire form, in the parameter `filter`. Of
several such parameters the last counts, and all others are ignored.
-/

set_option autoImplicit false

namespace InstanceConsole

/-- The name of the parameter that carries the filter. -/
def filterParameter : String := "filter"

/-- A query string without the question mark in front of it. -/
def dropQuestionMark (search : String) : List Char :=
  match search.toList with
  | '?' :: rest => rest
  | cs => cs

/-- The wire form in a query string. -/
def WireFilter.ofQuery (search : String) : Except FilterError WireFilter :=
  let parameters := FormEncoding.decode (Utf8.encode (dropQuestionMark search))
  match FormEncoding.lastValue? filterParameter parameters with
  | none => .error .missing
  | some value =>
      match (Json.read value).bind WireFilter.ofJson? with
      | none => .error .malformed
      | some wire => .ok wire

namespace Filter

/-- The filter in a query string. One with no field set is refused. -/
def ofQuery (search : String) : Except FilterError Filter := do
  let wire ← WireFilter.ofQuery search
  let filter ← wire.toFilter
  if filter.isEmpty then .error .empty else .ok filter

/-- The query string that carries a filter, with its question mark. -/
def toQuery (f : Filter) : String :=
  String.ofList <|
    '?' :: FormEncoding.encodePair filterParameter (WireFilter.ofFilter f).toJson.compact

end Filter

end InstanceConsole

import InstanceConsole.Filter.Criteria

/-!
# Queries of a selection

A query asks for the instances that meet its criteria, less some by their ids. A payload asks for
the union of its queries, for a new selection or for one that exists.

A query document holds the criteria among its own members. To find them, all of its members are
kept whole, so what it ignores must still be a value that can be kept; how deep that value lies
counts from the top of the document, whence the `level` of the decoders here.
-/

set_option autoImplicit false

namespace InstanceConsole

structure SelectionQuery where
  criteria : Criteria
  excludeIds : List String := []
  deriving DecidableEq, Repr

structure SelectionPayload where
  selectionId : Option UInt64 := none
  queries : List SelectionQuery
  deriving DecidableEq, Repr

namespace SelectionQuery

def toJson (q : SelectionQuery) : Json :=
  .record (q.criteria.members ++ Json.listMember "excludeIds" .text q.excludeIds)

/-- A query inside `level` arrays and objects. It is an object, never an array of its fields. -/
def ofJson? (level : Nat) (j : Json) : Option SelectionQuery :=
  match j with
  | .obj _ => do
      guard (j.isKeepable level)
      let fields ← Json.openRecord? (Criteria.fieldNames ++ ["excludeIds"]) j
      let criteria ← Criteria.ofFields? fields
      let excludeIds ← fields.defaulted "excludeIds" [] (Json.list? Json.text?)
      some { criteria, excludeIds }
  | _ => none

end SelectionQuery

namespace SelectionPayload

def toJson (p : SelectionPayload) : Json :=
  .record <|
    Json.optionalMember "selectionId" (fun n => .nat n.toNat) p.selectionId ++
    [("queries", .arr (p.queries.map SelectionQuery.toJson))]

/-- A payload inside `level` arrays and objects. -/
def ofJson? (level : Nat) (j : Json) : Option SelectionPayload := do
  let fields ← Json.openRecord? ["selectionId", "queries"] j
  let selectionId ← fields.optional "selectionId" Json.count?
  let queries ← fields.required "queries" (Json.list? (SelectionQuery.ofJson? (level + 2)))
  some { selectionId, queries }

end SelectionPayload

end InstanceConsole

import InstanceConsole.Filter.Wire
import InstanceConsole.Proofs.Basic

/-!
# Canonical filters

A query string cannot carry every filter. Blank fields are left out of it, and an id list travels
as one text, so an id that holds a comma or a blank comes out in pieces. `canonical` is what comes
out, and it comes out unchanged, `canonical_canonical`.
-/

set_option autoImplicit false

namespace InstanceConsole

namespace Filter

/-- The filter with every id cut at commas and blanks into the pieces that hold something, in
order. Without any piece there is no id list. -/
def withSplitIds (f : Filter) : Filter :=
  { f with ids := (f.ids.map fun ids => ids.flatMap WireFilter.splitIds).filter (· ≠ []) }

/-- The filter as a query string carries it. -/
def canonical (f : Filter) : Filter := f.normalized.withSplitIds

end Filter

/-! ## Ids -/

namespace WireFilter

/-- An id in a list holds something, and no separator. -/
theorem splitIds_of_mem_splitIds {s id : String} (h : id ∈ splitIds s) : splitIds id = [id] := by
  obtain ⟨piece, hpiece, rfl⟩ := List.mem_map.mp h
  obtain ⟨hmem, hne⟩ := List.mem_filter.mp hpiece
  rw [splitIds, String.toList_ofList,
    List.splitOnP_eq_singleton (eq_false_of_mem_splitOnP hmem), List.filter_cons, if_pos hne,
    List.filter_nil, List.map_singleton]

theorem splitIds_append_comma (s t : String) :
    splitIds (s ++ "," ++ t) = splitIds s ++ splitIds t := by
  -- The comma cuts there, and empty pieces are dropped on either side alike.
  have hlist : (s ++ "," ++ t).toList = s.toList ++ ',' :: t.toList := by simp
  rw [splitIds, hlist, List.splitOnP_append_cons _ _ (by decide), List.filter_append,
    List.map_append]
  rfl

/-- Joining ids and cutting them again cuts each by itself. -/
theorem splitIds_intercalate (ids : List String) :
    splitIds (String.intercalate "," ids) = ids.flatMap splitIds := by
  induction ids with
  | nil => rfl
  | cons id ids ih =>
      cases ids with
      | nil => simp
      | cons next ids =>
          rw [String.intercalate_cons_cons, splitIds_append_comma, ih]
          rfl

theorem flatMap_splitIds_of_forall {ids : List String} (h : ∀ id ∈ ids, splitIds id = [id]) :
    ids.flatMap splitIds = ids := by
  induction ids with
  | nil => rfl
  | cons id ids ih =>
      rw [List.flatMap_cons, h id (by simp), ih fun i hi => h i (by simp [hi])]
      rfl

end WireFilter

/-! ## Normal filters -/

namespace Filter

theorem bind_unlessBlank_bind_unlessBlank (o : Option String) :
    (o.bind unlessBlank).bind unlessBlank = o.bind unlessBlank := by
  cases o with
  | none => rfl
  | some s =>
      cases h : Text.isBlank s <;> simp [unlessBlank, h]

theorem filter_filter_self {α : Type} (p : α → Bool) (o : Option α) :
    (o.filter p).filter p = o.filter p := by
  cases o with
  | none => rfl
  | some a => cases h : p a <;> simp [Option.filter, h]

/-- What is normal stays as it is, apart from the id list. -/
theorem normalized_with_ids (f : Filter) (ids : Option (List String)) :
    { f.normalized with ids }.normalized = { f.normalized with ids := ids.filter (· ≠ []) } := by
  simp only [normalized, bind_unlessBlank_bind_unlessBlank, filter_filter_self]

theorem normalized_normalized (f : Filter) : f.normalized.normalized = f.normalized := by
  have h := normalized_with_ids f f.normalized.ids
  have hids : f.normalized.ids.filter (· ≠ []) = f.normalized.ids := filter_filter_self _ f.ids
  rw [hids] at h
  exact h

theorem normalized_canonical (f : Filter) : f.canonical.normalized = f.canonical := by
  have h := normalized_with_ids f f.canonical.ids
  have hids : f.canonical.ids.filter (· ≠ []) = f.canonical.ids := filter_filter_self _ _
  rw [hids] at h
  exact h

/-- A normal filter whose ids hold no separators is canonical. -/
theorem canonical_eq_self {f : Filter} (hnormal : f.normalized = f)
    (hids : ∀ ids ∈ f.ids, ∀ id ∈ ids, WireFilter.splitIds id = [id]) : f.canonical = f := by
  have hsplit : (f.ids.map fun ids => ids.flatMap WireFilter.splitIds) = f.ids := by
    cases h : f.ids with
    | none => rfl
    | some ids =>
        rw [Option.map_some, WireFilter.flatMap_splitIds_of_forall (hids ids (by simp [h]))]
  have hne : f.ids.filter (· ≠ []) = f.ids := congrArg Filter.ids hnormal
  rw [canonical, hnormal, withSplitIds, hsplit, hne]

theorem splitIds_of_mem_canonical {f : Filter} {ids : List String} (h : ids ∈ f.canonical.ids) :
    ∀ id ∈ ids, WireFilter.splitIds id = [id] := by
  intro id hid
  obtain ⟨all, -, hall⟩ := Option.map_eq_some_iff.mp (Option.eq_some_of_filter_eq_some h)
  rw [← hall] at hid
  obtain ⟨whole, -, hmem⟩ := List.mem_flatMap.mp hid
  exact WireFilter.splitIds_of_mem_splitIds hmem

theorem canonical_canonical (f : Filter) : f.canonical.canonical = f.canonical :=
  canonical_eq_self (normalized_canonical f) fun _ => splitIds_of_mem_canonical

example : ({ ids := some ["12,34", " 56 "] } : Filter).canonical.ids = some ["12", "34", "56"] := by
  decide

end Filter

end InstanceConsole

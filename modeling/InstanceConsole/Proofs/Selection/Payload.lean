import InstanceConsole.Selection.Basic

/-!
# What a payload asks for

A query stands for the instances that meet its criteria, less those that it excludes by their ids,
and a payload for the union of its queries. A selection in progress names instances by itself, and
the payload for it asks for those that meet the filter too, with one difference: the exclusions
always go into the query, but what is picked looks at them only when all instances are.
-/

set_option autoImplicit false

namespace InstanceConsole

/-- The query for instances that are picked one by one. -/
theorem SelectionQuery.ofFragment_of_not_all {fragment : SelectionFragment}
    (hall : fragment.all = false) (hexclude : fragment.excludeIds = .empty) (filter : Filter) :
    ofFragment filter fragment =
      { criteria := { filter.criteria with ids := fragment.ids.toList } } := by
  rw [ofFragment, hall, hexclude]
  rfl

/-- A reading of criteria: the ids of instances, and which of them fit criteria apart from the ids
there. -/
structure Meaning (ι : Type) where
  id : ι → String
  fits : Criteria → ι → Prop

namespace Meaning

variable {ι : Type} (M : Meaning ι)

/-- An instance meets criteria; an empty list of ids restricts nothing. -/
def Meets (c : Criteria) (i : ι) : Prop :=
  (c.ids = [] ∨ M.id i ∈ c.ids) ∧ M.fits { c with ids := [] } i

/-- An instance is among those that a query stands for. -/
def InQuery (q : SelectionQuery) (i : ι) : Prop :=
  M.Meets q.criteria i ∧ M.id i ∉ q.excludeIds

/-- An instance is among those of some of the queries. -/
def InUnion (qs : List SelectionQuery) (i : ι) : Prop := ∃ q ∈ qs, M.InQuery q i

theorem inUnion_append (qs rs : List SelectionQuery) (i : ι) :
    M.InUnion (qs ++ rs) i ↔ M.InUnion qs i ∨ M.InUnion rs i := by
  simp only [InUnion, List.mem_append, or_and_right, exists_or]

theorem inUnion_singleton (q : SelectionQuery) (i : ι) : M.InUnion [q] i ↔ M.InQuery q i := by
  simp [InUnion]

/-- Other ids in criteria that an instance meets decide by themselves. -/
theorem meets_with_ids {c : Criteria} {i : ι} (h : M.Meets c i) {ids : List String}
    (hids : ids ≠ []) : M.Meets { c with ids } i ↔ M.id i ∈ ids := by
  constructor
  · rintro ⟨hempty | hmem, -⟩
    · exact absurd hempty hids
    · exact hmem
  · intro hmem
    exact ⟨.inr hmem, h.2⟩

/-- The payloads for what is picked while a filter is in force, for a new selection and for one
that exists: whether they ask for an instance. -/
structure AsksFor (filter : Filter) (fragment : SelectionFragment) (i : ι) (wanted : Prop) :
    Prop where
  new : M.InUnion (SelectionPayload.ofFragment filter fragment none).queries i ↔ wanted
  joined : ∀ existing : Selection,
    M.InUnion (SelectionPayload.ofFragment filter fragment (some existing)).queries i ↔
      M.InUnion existing.queries i ∨ wanted

variable {M} {filter : Filter} {fragment : SelectionFragment} {i : ι} {wanted : Prop}

theorem asksFor_of_inQuery (h : M.InQuery (.ofFragment filter fragment) i ↔ wanted) :
    M.AsksFor filter fragment i wanted where
  new := by
    show M.InUnion ([] ++ [.ofFragment filter fragment]) i ↔ wanted
    rw [List.nil_append, inUnion_singleton, h]
  joined existing := by
    show M.InUnion (existing.queries ++ [.ofFragment filter fragment]) i ↔ _
    rw [inUnion_append, inUnion_singleton, h]

/-- **The query for what is picked** holds an instance that meets the filter exactly when it is
picked, and is not among the exclusions either. -/
theorem inQuery_ofFragment (hpicked : fragment.isEmpty = false)
    (hmeets : M.Meets filter.criteria i) :
    M.InQuery (.ofFragment filter fragment) i ↔
      fragment.isSelected (M.id i) = true ∧
        (fragment.all = true ∨ M.id i ∉ fragment.excludeIds) := by
  by_cases hall : fragment.all = true
  · -- The criteria are those of the filter, which the instance meets.
    have hselected : fragment.isSelected (M.id i) = true ↔ M.id i ∉ fragment.excludeIds := by
      rw [SelectionFragment.isSelected, if_pos hall, decide_eq_true_iff]
    rw [InQuery, SelectionQuery.ofFragment, if_pos hall, hselected]
    constructor
    · rintro ⟨-, hexcluded⟩
      exact ⟨hexcluded, .inl hall⟩
    · rintro ⟨hexcluded, -⟩
      exact ⟨hmeets, hexcluded⟩
  · have hselected : fragment.isSelected (M.id i) = true ↔ M.id i ∈ fragment.ids := by
      rw [SelectionFragment.isSelected, if_neg hall, decide_eq_true_iff]
    have hids : fragment.ids.toList ≠ [] := by
      simpa [SelectionFragment.isEmpty, hall, IdSet.isEmpty] using hpicked
    rw [InQuery, SelectionQuery.ofFragment, if_neg hall, M.meets_with_ids hmeets hids, hselected]
    constructor
    · rintro ⟨hmem, hexcluded⟩
      exact ⟨hmem, .inr hexcluded⟩
    · rintro ⟨hmem, hall' | hexcluded⟩
      · exact absurd hall' hall
      · exact ⟨hmem, hexcluded⟩

end Meaning

namespace SelectionFragment

/-- Nothing is excluded, or all other instances are picked. -/
def ExcludesFromAll (f : SelectionFragment) : Prop := f.all = true ∨ f.excludeIds = .empty

theorem excludesFromAll_toggle {f : SelectionFragment} (h : f.ExcludesFromAll) (id : String) :
    (f.toggle id).ExcludesFromAll := by
  unfold toggle
  by_cases hall : f.all = true
  · rw [if_pos hall]
    exact .inl hall
  · rw [if_neg hall]
    exact .inr (h.resolve_left hall)

/-- Where nothing is excluded but from all, the exclusions add nothing to what is picked. -/
theorem ExcludesFromAll.notMem {f : SelectionFragment} (h : f.ExcludesFromAll) (id : String) :
    f.all = true ∨ id ∉ f.excludeIds := by
  refine h.imp_right fun hempty => ?_
  rw [hempty]
  exact List.not_mem_nil

end SelectionFragment

end InstanceConsole

import InstanceConsole.Proofs.Selection.Toggles
import InstanceConsole.Selection.Basic
import Mathlib.Data.List.DropRight

/-!
# Histories of a selection in progress

A selection in progress comes about by toggles of single instances and by picks of all of them. To
pick all forgets what went before, so that only the toggles since then count, and of these only how
often each instance was toggled, by parity. One of the two sets in a fragment always is empty, and
the other has its members in order, so that histories which agree in this much leave the same
fragment, `parity_decides`.
-/

set_option autoImplicit false

namespace InstanceConsole

namespace SelectionFragment

/-- One change of a selection in progress. -/
inductive Pick where
  | toggle (id : String)
  | all
  deriving DecidableEq, Repr

namespace Pick

def apply (f : SelectionFragment) : Pick → SelectionFragment
  | toggle id => f.toggle id
  | all => f.selectAll

def toggled? : Pick → Option String
  | toggle id => some id
  | all => none

end Pick

/-- What picks in turn make of a new fragment. -/
def ofPicks (picks : List Pick) : SelectionFragment := picks.foldl Pick.apply {}

/-- The instances toggled since all were picked, or since the start when all never were. -/
def toggledSinceAll (picks : List Pick) : List String :=
  (picks.rtakeWhile (· ≠ .all)).filterMap Pick.toggled?

variable {f g : SelectionFragment} {picks others : List Pick} {id i : String}

/-! ## One pick more -/

theorem ofPicks_concat (picks : List Pick) (pick : Pick) :
    ofPicks (picks ++ [pick]) = pick.apply (ofPicks picks) := by
  rw [ofPicks, List.foldl_append]
  rfl

theorem toggledSinceAll_concat_all : toggledSinceAll (picks ++ [.all]) = [] := by
  rw [toggledSinceAll, List.rtakeWhile_concat_neg _ _ _ (by simp)]
  rfl

theorem toggledSinceAll_concat_toggle :
    toggledSinceAll (picks ++ [.toggle id]) = toggledSinceAll picks ++ [id] := by
  rw [toggledSinceAll, List.rtakeWhile_concat_pos _ _ _ (by simp), List.filterMap_append]
  rfl

/-! ## What a history comes to -/

/-- Only the last pick of all, and the toggles since then, show in a fragment. -/
theorem ofPicks_eq_foldl_toggle (picks : List Pick) :
    ofPicks picks = (toggledSinceAll picks).foldl toggle { all := decide (.all ∈ picks) } := by
  induction picks using List.reverseRecOn with
  | nil => rfl
  | append_singleton picks pick ih =>
      rw [ofPicks_concat]
      cases pick with
      | all =>
          rw [toggledSinceAll_concat_all]
          simp [Pick.apply, selectAll]
      | toggle id =>
          rw [toggledSinceAll_concat_toggle, List.foldl_append, Pick.apply, ih]
          simp

example : ofPicks [.toggle "1", .all, .toggle "2", .toggle "1", .toggle "2"] =
    { all := true, excludeIds := .ofList ["1"] } := by decide

theorem all_ofPicks (picks : List Pick) : (ofPicks picks).all = decide (.all ∈ picks) := by
  rw [ofPicks_eq_foldl_toggle, all_foldl_toggle]

theorem ids_ofPicks (h : .all ∈ picks) : (ofPicks picks).ids = .empty := by
  rw [ofPicks_eq_foldl_toggle, ids_foldl_toggle (by simpa using h)]

theorem excludeIds_ofPicks (h : .all ∉ picks) : (ofPicks picks).excludeIds = .empty := by
  rw [ofPicks_eq_foldl_toggle, excludeIds_foldl_toggle (by simpa using h)]

theorem isSelected_ofPicks (picks : List Pick) (i : String) :
    (ofPicks picks).isSelected i = true ↔
      (.all ∈ picks ↔ Even ((toggledSinceAll picks).count i)) := by
  have hstart : SelectionFragment.isSelected { all := decide (.all ∈ picks) } i =
      decide (.all ∈ picks) := by
    by_cases hall : .all ∈ picks
    · simp [isSelected, hall, IdSet.notMem_empty]
    · simp [isSelected, hall, IdSet.notMem_empty]
  rw [ofPicks_eq_foldl_toggle, isSelected_foldl_toggle, hstart, decide_eq_true_iff]

theorem isEmpty_ofPicks (picks : List Pick) :
    (ofPicks picks).isEmpty = true ↔
      .all ∉ picks ∧ ∀ i, (ofPicks picks).isSelected i = false := by
  by_cases hall : .all ∈ picks
  · simp [isEmpty, all_ofPicks, hall]
  · have hmode : (ofPicks picks).all = false := by simp [all_ofPicks, hall]
    simp [isEmpty_iff hmode, hall]

/-! ## Histories that leave the same -/

theorem eq_of_isSelected_eq (hall : f.all = g.all)
    (hids : f.all = true → f.ids = g.ids) (hexclude : f.all = false → f.excludeIds = g.excludeIds)
    (h : ∀ i, f.isSelected i = g.isSelected i) : f = g := by
  obtain ⟨ids, excludeIds, all⟩ := f
  obtain ⟨ids', excludeIds', all'⟩ := g
  cases hall
  cases all with
  | true =>
      have heq : excludeIds = excludeIds' :=
        IdSet.eq_of_mem_iff fun i => by simpa [isSelected, not_iff_not] using h i
      rw [heq, show ids = ids' from hids rfl]
  | false =>
      have heq : ids = ids' := IdSet.eq_of_mem_iff fun i => by simpa [isSelected] using h i
      rw [heq, show excludeIds = excludeIds' from hexclude rfl]

theorem ofPicks_eq_of_parity (hall : .all ∈ picks ↔ .all ∈ others)
    (hparity : ∀ i, Even ((toggledSinceAll picks).count i) ↔
      Even ((toggledSinceAll others).count i)) : ofPicks picks = ofPicks others := by
  have hmode : (ofPicks picks).all = (ofPicks others).all := by
    rw [all_ofPicks, all_ofPicks, decide_eq_decide]
    exact hall
  refine eq_of_isSelected_eq hmode ?_ ?_ ?_
  · intro h
    have hmem : .all ∈ picks := by simpa [all_ofPicks] using h
    rw [ids_ofPicks hmem, ids_ofPicks (hall.mp hmem)]
  · intro h
    have hmem : .all ∉ picks := by simpa [all_ofPicks] using h
    rw [excludeIds_ofPicks hmem, excludeIds_ofPicks (mt hall.mpr hmem)]
  · intro i
    rw [Bool.eq_iff_iff, isSelected_ofPicks, isSelected_ofPicks, hall, hparity]

/-- After toggles and picks of all on a new fragment, an instance is picked by the parity of its
toggles since all were picked: when it is odd if they never were, and when it is even if they
were. Only one of the two sets has members, and nothing is picked just when all never were and no
instance is. What agrees in the mode and in all the parities is the same fragment, and asks for the
same. -/
theorem parity_decides (picks : List Pick) :
    (.all ∉ picks → ∀ i,
      (ofPicks picks).isSelected i = true ↔ Odd ((toggledSinceAll picks).count i)) ∧
    (.all ∈ picks → ∀ i,
      (ofPicks picks).isSelected i = true ↔ Even ((toggledSinceAll picks).count i)) ∧
    (.all ∈ picks → (ofPicks picks).ids = .empty) ∧
    (.all ∉ picks → (ofPicks picks).excludeIds = .empty) ∧
    ((ofPicks picks).isEmpty = true ↔
      .all ∉ picks ∧ ∀ i, (ofPicks picks).isSelected i = false) ∧
    ∀ others, (.all ∈ picks ↔ .all ∈ others) →
      (∀ i, Even ((toggledSinceAll picks).count i) ↔ Even ((toggledSinceAll others).count i)) →
      ofPicks picks = ofPicks others ∧
        ∀ filter existing, SelectionPayload.ofFragment filter (ofPicks picks) existing =
          SelectionPayload.ofFragment filter (ofPicks others) existing := by
  refine ⟨?_, ?_, ids_ofPicks, excludeIds_ofPicks, isEmpty_ofPicks picks, ?_⟩
  · intro hall i
    rw [isSelected_ofPicks, ← Nat.not_even_iff_odd]
    simp only [hall, false_iff]
  · intro hall i
    rw [isSelected_ofPicks]
    simp only [hall, true_iff]
  · intro others hall hparity
    have heq := ofPicks_eq_of_parity hall hparity
    exact ⟨heq, fun filter existing => by rw [heq]⟩

end SelectionFragment

end InstanceConsole

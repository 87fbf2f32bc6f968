import InstanceConsole.Selection.Fragment
import Mathlib.Algebra.Ring.Parity

/-!
# Toggling instances

Toggling an instance flips whether it is picked and leaves all others alone. So after any number
of toggles only their parity counts, `isSelected_foldl_toggle`.
-/

set_option autoImplicit false

namespace InstanceConsole

namespace IdSet

variable {s : IdSet} {x y : String}

theorem mem_insert : y ∈ s.insert x ↔ y = x ∨ y ∈ s := mem_insertSorted x y s.toList

theorem nodup (s : IdSet) : s.toList.Nodup := by
  refine s.sorted.imp fun {x y} hlt heq => ?_
  subst heq
  exact String.lt_irrefl x hlt

theorem mem_erase : y ∈ s.erase x ↔ y ≠ x ∧ y ∈ s := s.nodup.mem_erase_iff

theorem mem_toggle : y ∈ s.toggle x ↔ (y = x ↔ y ∉ s) := by
  unfold toggle
  split
  next hx =>
    rw [mem_erase]
    by_cases hy : y = x
    · subst hy
      simp [hx]
    · simp [hy]
  next hx =>
    rw [mem_insert]
    by_cases hy : y = x
    · subst hy
      simp [hx]
    · simp [hy]

theorem isEmpty_iff : s.isEmpty = true ↔ ∀ x, x ∉ s :=
  List.isEmpty_iff.trans List.eq_nil_iff_forall_not_mem

theorem notMem_empty : x ∉ empty := List.not_mem_nil

/-- Sets with the same members are the same, since the order of members is settled. -/
theorem eq_of_mem_iff {t : IdSet} (h : ∀ x, x ∈ s ↔ x ∈ t) : s = t := by
  have hperm : s.toList.Perm t.toList := (List.perm_ext_iff_of_nodup s.nodup t.nodup).mpr h
  have hlist : s.toList = t.toList :=
    hperm.eq_of_pairwise (fun _ _ _ _ hxy hyx => absurd hyx (String.lt_asymm hxy)) s.sorted t.sorted
  cases s
  cases t
  cases hlist
  rfl

end IdSet

namespace SelectionFragment

variable {f : SelectionFragment} {id i : String}

theorem isSelected_iff_mem (h : f.all = false) : f.isSelected i = true ↔ i ∈ f.ids := by
  simp [isSelected, h]

/-- Where not all are picked, nothing is when no instance is. -/
theorem isEmpty_iff (h : f.all = false) :
    f.isEmpty = true ↔ ∀ i, f.isSelected i = false := by
  simp [isEmpty, isSelected, h, IdSet.isEmpty_iff]

/-! ## One toggle -/

@[simp]
theorem all_toggle (f : SelectionFragment) (id : String) : (f.toggle id).all = f.all := by
  unfold toggle
  split
  · rfl
  · rfl

theorem excludeIds_toggle (h : f.all = false) (id : String) :
    (f.toggle id).excludeIds = f.excludeIds := by
  simp only [toggle, h, Bool.false_eq_true, if_false]

theorem ids_toggle (h : f.all = true) (id : String) : (f.toggle id).ids = f.ids := by
  simp only [toggle, h, if_true]

theorem isSelected_toggle :
    (f.toggle id).isSelected i = true ↔ (i = id ↔ f.isSelected i = false) := by
  -- Either the exclusions are toggled, or the instances that are picked.
  cases hall : f.all with
  | true =>
      by_cases hi : i = id
      · simp [isSelected, toggle, hall, IdSet.mem_toggle, hi]
      · simp [isSelected, toggle, hall, IdSet.mem_toggle, hi]
  | false =>
      by_cases hi : i = id
      · simp [isSelected, toggle, hall, IdSet.mem_toggle, hi]
      · simp [isSelected, toggle, hall, IdSet.mem_toggle, hi]

/-! ## Toggles in turn -/

@[simp]
theorem all_foldl_toggle (f : SelectionFragment) (ids : List String) :
    (ids.foldl toggle f).all = f.all := by
  induction ids generalizing f with
  | nil => rfl
  | cons id ids ih => rw [List.foldl_cons, ih, all_toggle]

theorem excludeIds_foldl_toggle (h : f.all = false) (ids : List String) :
    (ids.foldl toggle f).excludeIds = f.excludeIds := by
  induction ids generalizing f with
  | nil => rfl
  | cons id ids ih =>
      rw [List.foldl_cons, ih ((all_toggle f id).trans h), excludeIds_toggle h]

theorem ids_foldl_toggle (h : f.all = true) (ids : List String) :
    (ids.foldl toggle f).ids = f.ids := by
  induction ids generalizing f with
  | nil => rfl
  | cons id ids ih => rw [List.foldl_cons, ih ((all_toggle f id).trans h), ids_toggle h]

/-- After toggles in turn, an instance is picked as before when it was toggled an even number of
times, and the other way round when it was not. -/
theorem isSelected_foldl_toggle (f : SelectionFragment) (ids : List String) (i : String) :
    (ids.foldl toggle f).isSelected i = true ↔
      (f.isSelected i = true ↔ Even (ids.count i)) := by
  induction ids generalizing f with
  | nil => simp
  | cons id ids ih =>
      rw [List.foldl_cons, ih, isSelected_toggle]
      by_cases hi : i = id
      · subst hi
        rw [List.count_cons_self, Nat.even_add_one]
        cases f.isSelected i <;> simp
      · rw [List.count_cons_of_ne (Ne.symm hi)]
        cases f.isSelected i <;> simp [hi]

/-- From nothing, the instances that were toggled an odd number of times are picked. -/
theorem isSelected_foldl_toggle_empty (ids : List String) (i : String) :
    (ids.foldl toggle {}).isSelected i = true ↔ Odd (ids.count i) := by
  have hnothing : ({} : SelectionFragment).isSelected i = false := rfl
  rw [isSelected_foldl_toggle, hnothing, ← Nat.not_even_iff_odd]
  simp

theorem isEmpty_foldl_toggle_empty (ids : List String) :
    (ids.foldl toggle {}).isEmpty = true ↔ ¬ ∃ i, Odd (ids.count i) := by
  rw [isEmpty_iff (all_foldl_toggle {} ids)]
  simp only [← isSelected_foldl_toggle_empty, not_exists, Bool.not_eq_true]

end SelectionFragment

end InstanceConsole

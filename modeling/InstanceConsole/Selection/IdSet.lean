import InstanceConsole.Json.Value

/-!
# Sets of ids

A set of texts as its members in code point order, each once. Two sets with the same members are
the same set.
-/

set_option autoImplicit false

namespace InstanceConsole

structure IdSet where
  toList : List String
  sorted : toList.Pairwise (· < ·)
  deriving DecidableEq, Repr

namespace IdSet

/-- Puts a text in its place; one that is there already stays single. -/
def insertSorted (x : String) : List String → List String
  | [] => [x]
  | y :: ys =>
      if x < y then x :: y :: ys
      else if x = y then y :: ys
      else y :: insertSorted x ys

theorem mem_insertSorted (x z : String) (ys : List String) :
    z ∈ insertSorted x ys ↔ z = x ∨ z ∈ ys := by
  induction ys with
  | nil => simp [insertSorted]
  | cons y ys ih =>
      simp only [insertSorted]
      split
      · simp
      · split
        · next h => subst h; simp
        · simp only [List.mem_cons, ih]
          exact ⟨fun h => h.elim (fun h => .inr (.inl h)) (Or.imp_right .inr),
            fun h => h.elim (fun h => .inr (.inl h)) (Or.imp_right .inr)⟩

theorem lt_of_not_lt_of_ne {x y : String} (h : ¬ x < y) (hne : x ≠ y) : y < x := by
  rcases Decidable.em (y < x) with hlt | hlt
  · exact hlt
  · exact absurd (String.le_antisymm (String.not_lt.mp hlt) (String.not_lt.mp h)) hne

theorem sorted_insertSorted (x : String) {ys : List String} (h : ys.Pairwise (· < ·)) :
    (insertSorted x ys).Pairwise (· < ·) := by
  induction ys with
  | nil => simp [insertSorted]
  | cons y ys ih =>
      have hy := List.pairwise_cons.mp h
      simp only [insertSorted]
      split
      · next hxy =>
          refine List.pairwise_cons.mpr ⟨fun z hz => ?_, h⟩
          rcases List.mem_cons.mp hz with rfl | hz
          · exact hxy
          · exact String.lt_trans hxy (hy.1 z hz)
      · next hxy =>
          split
          · exact h
          · next hne =>
              refine List.pairwise_cons.mpr ⟨fun z hz => ?_, ih hy.2⟩
              rcases (mem_insertSorted x z ys).mp hz with rfl | hz
              · exact lt_of_not_lt_of_ne hxy hne
              · exact hy.1 z hz

def empty : IdSet := ⟨[], .nil⟩

instance : Membership String IdSet := ⟨fun s x => x ∈ s.toList⟩

instance (x : String) (s : IdSet) : Decidable (x ∈ s) :=
  inferInstanceAs (Decidable (x ∈ s.toList))

def insert (s : IdSet) (x : String) : IdSet :=
  ⟨insertSorted x s.toList, sorted_insertSorted x s.sorted⟩

def erase (s : IdSet) (x : String) : IdSet :=
  ⟨s.toList.erase x, s.sorted.sublist List.erase_sublist⟩

/-- Takes a member out, or puts a text in that is not there. -/
def toggle (s : IdSet) (x : String) : IdSet := if x ∈ s then s.erase x else s.insert x

/-- The set of the members of a list. -/
def ofList (xs : List String) : IdSet := xs.foldl insert empty

def isEmpty (s : IdSet) : Bool := s.toList.isEmpty

/-! ## As a document -/

def toJson (s : IdSet) : Json := .arr (s.toList.map .text)

/-- A list of texts in any order, with repetitions or without. -/
def ofJson? (j : Json) : Option IdSet := (Json.list? Json.text? j).map ofList

end IdSet

end InstanceConsole

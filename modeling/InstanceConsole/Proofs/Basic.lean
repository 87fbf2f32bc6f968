/-!
# Steps that may fail, lists in pieces, and lists of named values

Facts that belong to no part of the console: a chain of steps that succeeds does so step by step,
a list that is cut holds no separator in any piece, while what has none in it is not cut, and in a
list of named values of which only some names are kept, these are found as before.
-/

set_option autoImplicit false

namespace InstanceConsole

section Steps

variable {ε α β γ : Type}

/-- A chain of steps that succeeds does so step by step. -/
theorem exists_ok_of_bind_eq_ok {x : Except ε α} {k : α → Except ε β} {b : β}
    (h : x >>= k = .ok b) : ∃ a, x = .ok a ∧ k a = .ok b := by
  cases x with
  | error e => cases h
  | ok a => exact ⟨a, rfl, h⟩

/-- A chain that succeeds was not refused at its start. -/
theorem eq_ok_of_ite_error {c : Prop} [Decidable c] {e : ε} {k : α → Except ε β}
    {x : Except ε β} {b : β} (h : (if c then Except.error e >>= k else x) = .ok b) : x = .ok b := by
  split at h
  · cases h
  · exact h

/-- Steps that come to the same fail with the same error. -/
theorem error_iff_of_map_eq {x : Except ε α} {y : Except ε β} {f : α → γ} {g : β → γ}
    (h : x.map f = y.map g) (error : ε) : x = .error error ↔ y = .error error := by
  cases x with
  | error e =>
      cases y with
      | error e' => rw [Except.error.inj h, Except.error.injEq, Except.error.injEq]
      | ok b => cases h
  | ok a =>
      cases y with
      | error e' => cases h
      | ok b => exact iff_of_false nofun nofun

end Steps

/-- No separator stands in a piece. -/
theorem eq_false_of_mem_splitOnP {α : Type} {p : α → Bool} {xs piece : List α}
    (h : piece ∈ xs.splitOnP p) : ∀ x ∈ piece, p x = false := by
  induction xs generalizing piece with
  | nil =>
      obtain rfl : piece = [] := by simpa using h
      simp
  | cons x xs ih =>
      rw [List.splitOnP_cons_eq_if_modifyHead] at h
      by_cases hx : p x = true
      · rw [if_pos hx, List.mem_cons] at h
        rcases h with rfl | h
        · simp
        · exact ih h
      · -- The element joins the first piece of the rest.
        obtain ⟨head, tail, hsplit⟩ := List.exists_cons_of_ne_nil (List.splitOnP_ne_nil p xs)
        rw [if_neg hx, hsplit, List.modifyHead_cons, List.mem_cons] at h
        rcases h with rfl | h
        · intro y hy
          rcases List.mem_cons.mp hy with rfl | hy
          · simpa using hx
          · exact ih (by simp [hsplit]) y hy
        · exact ih (by simp [hsplit, h])

/-- What holds no separator joins the first piece behind it. -/
theorem splitOn_append_of_notMem {α : Type} [BEq α] [LawfulBEq α] {a : α} {xs : List α}
    (h : a ∉ xs) (ys : List α) :
    (xs ++ ys).splitOn a = (ys.splitOn a).modifyHead (xs ++ ·) := by
  induction xs with
  | nil =>
      show ys.splitOn a = (ys.splitOn a).modifyHead id
      rw [List.modifyHead_id, id]
  | cons x xs ih =>
      obtain ⟨hne, hrest⟩ := not_or.mp (mt List.mem_cons.mpr h)
      rw [List.cons_append, List.splitOn_cons_eq_if_modifyHead, if_neg (by simpa using Ne.symm hne),
        ih hrest, List.modifyHead_modifyHead]
      rfl

/-- In a list of named values of which only some names are kept, these are found as before. -/
theorem lookup_filter {α β : Type} [BEq α] [LawfulBEq α] (p : α → Bool) (named : List (α × β))
    (a : α) :
    (named.filter fun m => p m.1).lookup a = if p a = true then named.lookup a else none := by
  induction named with
  | nil => simp
  | cons m named ih =>
      obtain ⟨name, value⟩ := m
      rw [List.filter_cons]
      by_cases ha : a = name
      · -- What is kept of the list begins with this name, or has it nowhere.
        subst ha
        by_cases hp : p a = true
        · simp [hp]
        · rw [if_neg hp, ih, if_neg hp, if_neg hp]
      · have hne : (a == name) = false := beq_eq_false_iff_ne.mpr ha
        by_cases hp : p name = true
        · rw [if_pos hp, List.lookup_cons, List.lookup_cons, hne, ih]
        · rw [if_neg hp, List.lookup_cons, hne, ih]

end InstanceConsole

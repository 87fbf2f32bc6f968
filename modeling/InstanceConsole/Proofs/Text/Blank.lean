import InstanceConsole.Text.Blank

/-!
# Texts without blanks

A text in which no character is blank is left as it is by trimming.
-/

set_option autoImplicit false

namespace InstanceConsole.Text

/-- The visible characters of ASCII are not blank. -/
theorem isBlankChar_of_visible {c : Char} (h : 0x21 ≤ c.toNat) (h' : c.toNat ≤ 0x7E) :
    isBlankChar c = false := by
  simp only [isBlankChar, blankRanges, List.any_cons, List.any_nil, Bool.or_eq_false_iff,
    Bool.and_eq_false_iff, decide_eq_false_iff_not, and_true]
  omega

theorem isBlankChar_of_isDigit {c : Char} (h : c.isDigit = true) : isBlankChar c = false := by
  have hc : 48 ≤ c.toNat ∧ c.toNat ≤ 57 := Char.isDigit_iff_toNat.mp h
  exact isBlankChar_of_visible (by omega) (by omega)

theorem trimFront_eq_self {cs : List Char} (h : ∀ c ∈ cs.head?, isBlankChar c = false) :
    trimFront cs = cs := by
  cases cs with
  | nil => rfl
  | cons c cs => simp [trimFront, h c (by simp)]

theorem trim_eq_self {s : String} (h : ∀ c ∈ s.toList, isBlankChar c = false) : trim s = s := by
  have hfront : trimFront s.toList = s.toList :=
    trimFront_eq_self fun c hc => h c (List.mem_of_mem_head? hc)
  have hback : trimFront s.toList.reverse = s.toList.reverse :=
    trimFront_eq_self fun c hc => h c (List.mem_reverse.mp (List.mem_of_mem_head? hc))
  rw [trim, trimChars, hfront, hback, List.reverse_reverse, String.ofList_toList]

theorem isBlank_eq_false {s : String} {c : Char} (hc : c ∈ s.toList) (h : isBlankChar c = false) :
    isBlank s = false := by
  rw [isBlank, List.all_eq_false]
  exact ⟨c, hc, by simp [h]⟩

end InstanceConsole.Text

/-!
# Blank characters

The Unicode property `White_Space`, and trimming by it. A text is blank when it holds nothing
else; that is the same as being empty once trimmed.
-/

set_option autoImplicit false

namespace InstanceConsole.Text

/-- The inclusive ranges of the Unicode property `White_Space`. -/
def blankRanges : List (Nat × Nat) :=
  [(0x09, 0x0D), (0x20, 0x20), (0x85, 0x85), (0xA0, 0xA0), (0x1680, 0x1680), (0x2000, 0x200A),
   (0x2028, 0x2029), (0x202F, 0x202F), (0x205F, 0x205F), (0x3000, 0x3000)]

/-- Whether a character has the property `White_Space`. -/
def isBlankChar (c : Char) : Bool :=
  blankRanges.any fun r => r.1 ≤ c.toNat && c.toNat ≤ r.2

/-- Drops the blank characters at the front. -/
def trimFront (cs : List Char) : List Char := cs.dropWhile isBlankChar

/-- Drops the blank characters at both ends. -/
def trimChars (cs : List Char) : List Char :=
  (trimFront (trimFront cs).reverse).reverse

/-- A text without the blank characters at its ends. -/
def trim (s : String) : String := String.ofList (trimChars s.toList)

/-- Whether every character of a text is blank; the empty text is blank too. -/
def isBlank (s : String) : Bool := s.toList.all isBlankChar

/-! ## What trimming keeps -/

theorem trimFront_eq_nil_iff (cs : List Char) :
    trimFront cs = [] ↔ cs.all isBlankChar = true := by
  induction cs with
  | nil => simp [trimFront]
  | cons c cs ih =>
      by_cases h : isBlankChar c = true
      · rw [trimFront, List.dropWhile_cons, if_pos h, List.all_cons, h, Bool.true_and]
        exact ih
      · simp [trimFront, h]

theorem trimChars_eq_nil_iff (cs : List Char) :
    trimChars cs = [] ↔ cs.all isBlankChar = true := by
  constructor
  · intro h
    have h' : (trimFront cs).reverse.all isBlankChar = true :=
      (trimFront_eq_nil_iff _).mp (by simpa [trimChars] using h)
    rw [List.all_reverse] at h'
    rw [← trimFront_eq_nil_iff]
    cases hf : trimFront cs with
    | nil => rfl
    | cons c rest =>
        have hc : isBlankChar c = true :=
          by simpa [hf] using (List.all_eq_true.mp h') c (by simp [hf])
        have hn := List.head_dropWhile_not isBlankChar (l := cs)
          (by simp [show cs.dropWhile isBlankChar = c :: rest from hf])
        simp [show cs.dropWhile isBlankChar = c :: rest from hf, hc] at hn
  · intro h
    have h' : trimFront cs = [] := (trimFront_eq_nil_iff cs).mpr h
    simp only [trimChars, h']
    rfl

/-- A text is blank exactly when trimming leaves nothing of it. -/
theorem trim_eq_empty_iff (s : String) : trim s = "" ↔ isBlank s = true := by
  rw [isBlank, ← trimChars_eq_nil_iff, trim]
  constructor
  · intro h
    have := congrArg String.toList h
    simpa using this
  · intro h
    rw [h]

end InstanceConsole.Text

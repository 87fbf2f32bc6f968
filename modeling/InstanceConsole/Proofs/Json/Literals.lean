import InstanceConsole.Json.Reader
import InstanceConsole.Json.Writer
import InstanceConsole.Proofs.Text.Numeral

/-!
# JSON literals read back

Names, numbers and string literals as the writer puts them down, and what the reader makes of them.
-/

set_option autoImplicit false

namespace InstanceConsole.Json

/-! ## Numbers -/

theorem exponent?_writeInt (n : Int) : exponent? (writeInt n) = some n := by
  cases n with
  | ofNat n =>
      have hread := Numeral.value?_digits n
      have hdigit := fun c => Numeral.isDigit_of_mem_digits (n := n) (c := c)
      rw [writeInt]
      unfold exponent?
      -- No digit is a sign, so only the last case remains.
      split
      · next h => exact absurd (hdigit '+' (by simp [h])) (by decide)
      · next h => exact absurd (hdigit '-' (by simp [h])) (by decide)
      · rw [hread]
        rfl
  | negSucc n =>
      rw [writeInt, exponent?, Numeral.value?_digits]
      rfl

/-- A numeral is never refused for a zero in front. -/
theorem unsignedNumber?_digits_append (negative : Bool) (n : Nat) (rest : List Char)
    (hrest : ∀ c ∈ rest.head?, Numeral.isDigit c = false) :
    unsignedNumber? negative (Numeral.digits n ++ rest) =
      fraction? negative (Numeral.digits n) rest := by
  have hdigit := fun c => Numeral.isDigit_of_mem_digits (n := n) (c := c)
  -- Only zero itself begins with a zero.
  have hzero : ¬ ((Numeral.digits n).head? = some '0' ∧ Numeral.digits n ≠ ['0']) := by
    rintro ⟨hhead, hne⟩
    by_cases hn : n = 0
    · subst hn
      exact hne rfl
    · exact Numeral.head?_digits_ne_zero hn hhead
  rw [unsignedNumber?, Numeral.takeWhile_isDigit_append hdigit hrest,
    Numeral.dropWhile_isDigit_append hdigit hrest,
    if_neg (not_or.mpr ⟨Numeral.digits_ne_nil n, hzero⟩)]

theorem number?_unsigned {cs : List Char} (h : ∀ c ∈ cs.head?, c.isDigit = true) :
    number? cs = unsignedNumber? false cs := by
  unfold number?
  split
  · exact absurd (h '-' (by simp)) (by decide)
  · rfl

/-- A numeral with nothing behind it is an integer; only a negative zero is not. -/
theorem fraction?_nil (negative : Bool) (n : Nat) :
    fraction? negative (Numeral.digits n) [] =
      some (if negative then if (n : Int) = 0 then .decimal true 0 0 else .integer (-(n : Int))
        else .integer n) := by
  have hread := Numeral.value?_digits n
  unfold fraction?
  rw [hread]
  rfl

/-- A numeral with an exponent behind it. -/
theorem fraction?_exponent (negative : Bool) (significand : Nat) (exponent : Int) :
    fraction? negative (Numeral.digits significand) ('e' :: writeInt exponent) =
      some (.decimal negative significand exponent) := by
  show ((Numeral.value? (Numeral.digits significand)).bind fun n =>
    (exponent? (writeInt exponent)).bind fun e => some (JsonNumber.decimal negative n e)) = _
  rw [Numeral.value?_digits, exponent?_writeInt]
  rfl

theorem number?_writeNumber (n : JsonNumber) : number? (writeNumber n) = some n := by
  have hhead : ∀ m rest, ∀ c ∈ (Numeral.digits m ++ rest).head?, c.isDigit = true := by
    intro m rest c hc
    cases hd : Numeral.digits m with
    | nil => exact absurd hd (Numeral.digits_ne_nil m)
    | cons d ds =>
        rw [hd] at hc
        obtain rfl : d = c := by simpa using hc
        exact Numeral.isDigit_of_mem_digits (n := m) (by simp [hd])
  cases n with
  | integer n =>
      -- Nothing follows the digits.
      cases n with
      | ofNat n =>
          have h := unsignedNumber?_digits_append false n [] (by simp)
          rw [writeNumber, writeInt, number?_unsigned (by simpa using hhead n [])]
          rw [List.append_nil] at h
          rw [h, fraction?_nil]
          rfl
      | negSucc n =>
          have h := unsignedNumber?_digits_append true (n + 1) [] (by simp)
          rw [List.append_nil] at h
          rw [writeNumber, writeInt, number?, h, fraction?_nil]
          rfl
  | decimal negative significand exponent =>
      -- An exponent follows them, and its letter is no digit.
      have h : ∀ sign,
          unsignedNumber? sign (Numeral.digits significand ++ 'e' :: writeInt exponent) =
            some (.decimal sign significand exponent) := by
        intro sign
        rw [unsignedNumber?_digits_append sign significand ('e' :: writeInt exponent)
          (by simp [Numeral.isDigit, Numeral.digit?]), fraction?_exponent]
      rw [writeNumber]
      cases negative with
      | false => exact (number?_unsigned (hhead _ _)).trans (h false)
      | true => exact h true

/-! ## Names and numbers as bare words -/

theorem isBareChar_of_isDigit {c : Char} (h : c.isDigit = true) : isBareChar c = true := by
  simp [isBareChar, Char.isAlphanum, h]

theorem isBareChar_of_mem_writeInt {n : Int} {c : Char} (h : c ∈ writeInt n) :
    isBareChar c = true := by
  cases n with
  | ofNat n => exact isBareChar_of_isDigit (Numeral.isDigit_of_mem_digits h)
  | negSucc n =>
      rcases List.mem_cons.mp h with rfl | h
      · decide
      · exact isBareChar_of_isDigit (Numeral.isDigit_of_mem_digits h)

theorem isBareChar_of_mem_writeNumber {n : JsonNumber} {c : Char} (h : c ∈ writeNumber n) :
    isBareChar c = true := by
  cases n with
  | integer n => exact isBareChar_of_mem_writeInt h
  | decimal negative significand exponent =>
      simp only [writeNumber, List.append_assoc, List.mem_append, List.mem_cons] at h
      rcases h with h | h | rfl | h
      · cases negative with
        | false => simp at h
        | true =>
            obtain rfl : c = '-' := by simpa using h
            decide
      · exact isBareChar_of_isDigit (Numeral.isDigit_of_mem_digits h)
      · decide
      · exact isBareChar_of_mem_writeInt h

theorem writeNumber_ne_nil (n : JsonNumber) : writeNumber n ≠ [] := by
  cases n with
  | integer n =>
      cases n with
      | ofNat n => exact Numeral.digits_ne_nil n
      | negSucc n => simp [writeNumber, writeInt]
  | decimal negative significand exponent => simp [writeNumber]

/-- No number is written like a name, since none of the names is a number. -/
theorem bareWord?_writeNumber (n : JsonNumber) : bareWord? (writeNumber n) = some (.num n) := by
  have h := number?_writeNumber n
  have hne : ∀ word, number? word = none → writeNumber n ≠ word := by
    intro word hword heq
    rw [heq, hword] at h
    exact absurd h (by simp)
  rw [bareWord?, if_neg (hne _ (by decide)), if_neg (hne _ (by decide)), if_neg (hne _ (by decide)),
    h]
  rfl

end InstanceConsole.Json

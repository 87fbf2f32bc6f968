import InstanceConsole.Text.Numeral

/-!
# Numerals read back

What `digits` and `padded` write, `value?` reads, with or without zeros in front.
-/

set_option autoImplicit false

namespace InstanceConsole.Numeral

/-! ## Single digits -/

theorem digit?_of_isDigit {c : Char} (h : c.isDigit = true) : digit? c = some (c.toNat - 48) := by
  have hc : '0' ≤ c ∧ c ≤ '9' := by
    simpa [Char.isDigit, Char.le_def] using h
  rw [digit?, if_pos hc]

theorem isDigit_of_isDigit {c : Char} (h : c.isDigit = true) : isDigit c = true := by
  rw [isDigit, digit?_of_isDigit h]
  rfl

/-- A hexadecimal digit in lower case reads back. -/
theorem hexDigit?_hexDigit : ∀ n < 16, hexDigit? (hexDigit n) = some n := by decide

/-! ## Whole numerals -/

theorem valueFrom_of_forall_isDigit {cs : List Char} (h : ∀ c ∈ cs, c.isDigit = true) (acc : Nat) :
    valueFrom acc cs = some (Nat.ofDigitChars 10 cs acc) := by
  induction cs generalizing acc with
  | nil => simp [valueFrom]
  | cons c cs ih =>
      have hc := digit?_of_isDigit (h c (by simp))
      rw [valueFrom, hc, Option.bind_some, ih (fun d hd => h d (by simp [hd])),
        Nat.ofDigitChars_cons]
      rfl

theorem value?_of_forall_isDigit {cs : List Char} (hne : cs ≠ []) (h : ∀ c ∈ cs, c.isDigit = true) :
    value? cs = some (Nat.ofDigitChars 10 cs 0) := by
  cases cs with
  | nil => exact absurd rfl hne
  | cons c cs => exact valueFrom_of_forall_isDigit h 0

theorem isDigit_of_mem_digits {n : Nat} {c : Char} (h : c ∈ digits n) : c.isDigit = true :=
  Nat.isDigit_of_mem_toDigits (by omega) (by omega) h

theorem digits_ne_nil (n : Nat) : digits n ≠ [] := Nat.toDigits_ne_nil

theorem value?_digits (n : Nat) : value? (digits n) = some n := by
  rw [value?_of_forall_isDigit (digits_ne_nil n) (fun _ => isDigit_of_mem_digits), digits,
    Nat.ofDigitChars_ten_toDigits]

theorem isDigit_of_mem_padded {width n : Nat} {c : Char} (h : c ∈ padded width n) :
    c.isDigit = true := by
  rcases List.mem_append.mp h with h | h
  · rw [List.eq_of_mem_replicate h]
    decide
  · exact isDigit_of_mem_digits h

theorem padded_ne_nil (width n : Nat) : padded width n ≠ [] := by
  simp [padded, digits_ne_nil]

theorem value?_padded (width n : Nat) : value? (padded width n) = some n := by
  rw [value?_of_forall_isDigit (padded_ne_nil width n) (fun _ => isDigit_of_mem_padded), padded,
    Nat.ofDigitChars_append, Nat.ofDigitChars_replicate_zero, digits, Nat.mul_zero,
    Nat.ofDigitChars_ten_toDigits]

/-- A number of at most `width` digits is padded to `width` digits. -/
theorem length_padded {width n : Nat} (h : (digits n).length ≤ width) :
    (padded width n).length = width := by
  rw [padded, List.length_append, List.length_replicate]
  omega

/-- Only the numeral of zero begins with a zero. -/
theorem head?_digits_ne_zero {n : Nat} (hn : n ≠ 0) : (digits n).head? ≠ some '0' := by
  induction n using Nat.strongRecOn with
  | ind n ih =>
      by_cases h : n < 10
      · rw [digits, Nat.toDigits_of_lt_base h]
        simpa using hn
      · -- The first digit is the first digit of the number without its last digit.
        have ih' := ih (n / 10) (by omega) (by omega)
        rw [digits, Nat.toDigits_of_base_le (by omega) (by omega)]
        cases hd : digits (n / 10) with
        | nil => exact absurd hd (digits_ne_nil _)
        | cons c cs =>
            rw [hd] at ih'
            simpa [show Nat.toDigits 10 (n / 10) = c :: cs from hd] using ih'

/-! ## Bounds -/

theorem lt_ten_of_digit? {c : Char} {d : Nat} (h : digit? c = some d) : d < 10 := by
  unfold digit? at h
  split at h
  · next hc =>
      have hle : c.toNat ≤ 57 := hc.2
      obtain rfl := Option.some.inj h
      omega
  · cases h

theorem lt_of_valueFrom {cs : List Char} {acc n : Nat} (h : valueFrom acc cs = some n) :
    n < (acc + 1) * Nat.pow 10 cs.length := by
  induction cs generalizing acc with
  | nil =>
      obtain rfl := Option.some.inj h
      exact Nat.lt_of_lt_of_eq (Nat.lt_succ_self _) (Nat.mul_one _).symm
  | cons c cs ih =>
      obtain ⟨d, hd, hrest⟩ := Option.bind_eq_some_iff.mp h
      have hten := lt_ten_of_digit? hd
      have hacc : 10 * acc + d + 1 ≤ (acc + 1) * 10 := by omega
      calc n < (10 * acc + d + 1) * Nat.pow 10 cs.length := ih hrest
        _ ≤ (acc + 1) * 10 * Nat.pow 10 cs.length := Nat.mul_le_mul_right _ hacc
        _ = (acc + 1) * Nat.pow 10 (cs.length + 1) := by
            rw [Nat.mul_assoc, Nat.mul_comm 10]
            rfl

/-- A numeral of some digits is below the power of ten with so many zeros. -/
theorem lt_of_value? {cs : List Char} {n : Nat} (h : value? cs = some n) :
    n < Nat.pow 10 cs.length := by
  cases cs with
  | nil => cases h
  | cons c cs => simpa using lt_of_valueFrom h

theorem length_takeDigits_le (limit : Nat) (cs : List Char) :
    (takeDigits limit cs).1.length ≤ limit := by
  induction limit generalizing cs with
  | zero => exact Nat.le_refl 0
  | succ limit ih =>
      cases cs with
      | nil => exact Nat.zero_le _
      | cons c cs =>
          rw [takeDigits]
          split
          · exact Nat.succ_le_succ (ih cs)
          · exact Nat.zero_le _

/-! ## Numerals at the front of a text -/

/-- Digits are taken up to what is no digit. -/
theorem takeDigits_append {front rest : List Char} (hfront : ∀ c ∈ front, c.isDigit = true)
    (hrest : ∀ c ∈ rest.head?, isDigit c = false) {limit : Nat} (hlimit : front.length ≤ limit) :
    takeDigits limit (front ++ rest) = (front, rest) := by
  induction front generalizing limit with
  | nil =>
      cases limit with
      | zero => rfl
      | succ limit =>
          cases rest with
          | nil => rfl
          | cons c rest => simp [takeDigits, hrest c (by simp)]
  | cons c front ih =>
      cases limit with
      | zero => simp at hlimit
      | succ limit =>
          have hc := isDigit_of_isDigit (hfront c (by simp))
          have hlimit' : front.length ≤ limit := by simpa using hlimit
          have ih' := ih (fun d hd => hfront d (by simp [hd])) hlimit'
          simp [takeDigits, hc, ih']

theorem takeWhile_isDigit_append {front rest : List Char} (hfront : ∀ c ∈ front, c.isDigit = true)
    (hrest : ∀ c ∈ rest.head?, isDigit c = false) :
    (front ++ rest).takeWhile isDigit = front := by
  rw [List.takeWhile_append_of_pos (fun c hc => isDigit_of_isDigit (hfront c hc))]
  cases rest with
  | nil => simp
  | cons c rest => simp [hrest c (by simp)]

theorem dropWhile_isDigit_append {front rest : List Char} (hfront : ∀ c ∈ front, c.isDigit = true)
    (hrest : ∀ c ∈ rest.head?, isDigit c = false) :
    (front ++ rest).dropWhile isDigit = rest := by
  rw [List.dropWhile_append_of_pos (fun c hc => isDigit_of_isDigit (hfront c hc))]
  cases rest with
  | nil => simp
  | cons c rest => simp [hrest c (by simp)]

end InstanceConsole.Numeral

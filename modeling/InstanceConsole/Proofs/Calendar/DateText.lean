import InstanceConsole.Calendar.Date
import InstanceConsole.Proofs.Text.Blank
import InstanceConsole.Proofs.Text.Numeral

/-!
# Dates read back

A date that is written is read as the same date, in the tight form and in the loose one, and over
the whole calendar: years of four digits, and years with a sign and any number of digits.
-/

set_option autoImplicit false

namespace InstanceConsole

namespace Calendar

/-! ## Numbers -/

theorem scanDigits_append {front rest : List Char} {n limit : Nat}
    (hvalue : Numeral.value? front = some n) (hfront : ∀ c ∈ front, c.isDigit = true)
    (hrest : ∀ c ∈ rest.head?, Numeral.isDigit c = false) (hlimit : front.length ≤ limit) :
    scanDigits limit (front ++ rest) = some (n, rest) := by
  rw [scanDigits, Numeral.takeDigits_append hfront hrest hlimit]
  simp only [hvalue, Option.map_some]

/-- Digits end where another mark follows. -/
theorem isDigit_head?_cons {mark : Char} (hmark : Numeral.isDigit mark = false) (cs : List Char) :
    ∀ c ∈ (mark :: cs).head?, Numeral.isDigit c = false := by
  intro c hc
  obtain rfl : mark = c := by simpa using hc
  exact hmark

theorem head?_append_isDigit {front : List Char} (hne : front ≠ [])
    (hfront : ∀ c ∈ front, c.isDigit = true) (rest : List Char) :
    ∀ c ∈ (front ++ rest).head?, c.isDigit = true := by
  intro c hc
  obtain ⟨d, ds, rfl⟩ := List.exists_cons_of_ne_nil hne
  obtain rfl : d = c := by simpa using hc
  exact hfront d (by simp)

theorem trimFront_padded (width n : Nat) (rest : List Char) :
    Text.trimFront (Numeral.padded width n ++ rest) = Numeral.padded width n ++ rest :=
  Text.trimFront_eq_self fun c hc => Text.isBlankChar_of_isDigit <|
    head?_append_isDigit (Numeral.padded_ne_nil width n) (fun _ => Numeral.isDigit_of_mem_padded)
      rest c hc

/-- A month or a day, which has two digits. -/
theorem scanNumber_padded {n : Nat} (hn : n < 100) {rest : List Char}
    (hrest : ∀ c ∈ rest.head?, Numeral.isDigit c = false) :
    scanNumber 2 (Numeral.padded 2 n ++ rest) = some (n, rest) := by
  have hdigits : (Numeral.digits n).length ≤ 2 :=
    (Nat.length_toDigits_le_iff (by omega) (by omega)).mpr (by omega)
  have hlength : (Numeral.padded 2 n).length = 2 := Numeral.length_padded hdigits
  rw [scanNumber, trimFront_padded]
  exact scanDigits_append (Numeral.value?_padded 2 n) (fun _ => Numeral.isDigit_of_mem_padded)
    hrest (by omega)

theorem scanSpacedMark_cons (loose : Bool) {mark : Char} (hmark : Text.isBlankChar mark = false)
    (cs : List Char) : scanSpacedMark loose mark (mark :: cs) = some cs := by
  have htrim : Text.trimFront (mark :: cs) = mark :: cs :=
    Text.trimFront_eq_self fun c hc => by
      obtain rfl : mark = c := by simpa using hc
      exact hmark
  have hmarked : scanMark mark (mark :: cs) = some cs := if_pos rfl
  cases loose with
  | false => exact hmarked
  | true => rw [scanSpacedMark, if_pos rfl, htrim, hmarked]

/-! ## Years -/

/-- A year that begins with a digit has at most four of them. -/
theorem scanYear_unsigned {cs : List Char} (hhead : ∀ c ∈ cs.head?, c.isDigit = true) :
    scanYear cs = (scanDigits 4 cs).map fun (n, rest) => ((n : Int), rest) := by
  have htrim : Text.trimFront cs = cs :=
    Text.trimFront_eq_self fun c hc => Text.isBlankChar_of_isDigit (hhead c hc)
  rw [scanYear, htrim]
  split
  · exact absurd (hhead '-' (by simp)) (by decide)
  · exact absurd (hhead '+' (by simp)) (by decide)
  · rfl

theorem scanYear_signed {sign : Char} (hsign : sign = '-' ∨ sign = '+') {front rest : List Char}
    {n : Nat} (hvalue : Numeral.value? front = some n) (hfront : ∀ c ∈ front, c.isDigit = true)
    (hrest : ∀ c ∈ rest.head?, Numeral.isDigit c = false) :
    scanYear (sign :: (front ++ rest)) = some (if sign = '-' then -(n : Int) else n, rest) := by
  have hscan : scanDigits (front ++ rest).length (front ++ rest) = some (n, rest) :=
    scanDigits_append hvalue hfront hrest (by simp)
  have htrim : Text.trimFront (sign :: (front ++ rest)) = sign :: (front ++ rest) :=
    Text.trimFront_eq_self fun c hc => by
      obtain rfl : sign = c := by simpa using hc
      rcases hsign with rfl | rfl <;> decide
  rw [scanYear, htrim]
  rcases hsign with rfl | rfl
  · simp only [hscan, Option.map_some]
    rfl
  · simp only [hscan, Option.map_some]
    rfl

theorem scanYear_yearChars (year : Int) {rest : List Char}
    (hrest : ∀ c ∈ rest.head?, Numeral.isDigit c = false) :
    scanYear (Date.yearChars year ++ rest) = some (year, rest) := by
  have hpadded : ∀ n, ∀ c ∈ Numeral.padded 4 n, c.isDigit = true :=
    fun _ _ => Numeral.isDigit_of_mem_padded
  cases year with
  | ofNat n =>
      by_cases hn : n ≤ 9999
      · -- Four digits and no sign. The reader stops after four, so no digit may follow.
        have hdigits : (Numeral.digits n).length ≤ 4 :=
          (Nat.length_toDigits_le_iff (by omega) (by omega)).mpr (by omega)
        have hlength : (Numeral.padded 4 n).length = 4 := Numeral.length_padded hdigits
        rw [Date.yearChars, if_pos hn, scanYear_unsigned
          (head?_append_isDigit (Numeral.padded_ne_nil 4 n) (hpadded n) rest),
          scanDigits_append (Numeral.value?_padded 4 n) (hpadded n) hrest (by omega),
          Option.map_some]
        rfl
      · -- The plus sign makes the reader take all digits.
        rw [Date.yearChars, if_neg hn]
        exact scanYear_signed (Or.inr rfl) (Numeral.value?_digits n)
          (fun _ => Numeral.isDigit_of_mem_digits) hrest
  | negSucc n =>
      rw [Date.yearChars]
      exact scanYear_signed (Or.inl rfl) (Numeral.value?_padded 4 (n + 1)) (hpadded (n + 1)) hrest

/-! ## Dates -/

theorem le_of_exists? {year : Int} {month day : Nat} (h : exists? year month day = true) :
    month ≤ 12 ∧ day ≤ 31 := by
  simp only [exists?, Bool.and_eq_true, decide_eq_true_eq] at h
  have hdays : daysInMonth year month ≤ 31 := by
    rw [daysInMonth]
    split
    · split <;> omega
    · split <;> omega
  omega

/-- **A date that is written is read**, whatever follows it but a digit. -/
theorem scanDate_chars (loose : Bool) (d : Date) (rest : List Char)
    (hrest : ∀ c ∈ rest.head?, Numeral.isDigit c = false) :
    scanDate loose (d.chars ++ rest) = some (d, rest) := by
  -- Months and days of the calendar have two digits at most.
  obtain ⟨hmonth, hday⟩ := le_of_exists? d.valid
  have hhyphen : ∀ cs : List Char, ∀ c ∈ ('-' :: cs).head?, Numeral.isDigit c = false :=
    isDigit_head?_cons (by decide)
  have hparts : Date.ofParts? d.year d.month d.day = some d := by
    rw [Date.ofParts?, dif_pos d.valid]
  rw [Date.chars, scanDate]
  simp only [List.append_assoc, List.cons_append]
  simp only [scanYear_yearChars d.year (hhyphen _),
    scanSpacedMark_cons loose (show Text.isBlankChar '-' = false by decide),
    scanNumber_padded (n := d.month) (by omega) (hhyphen _),
    scanNumber_padded (n := d.day) (by omega) hrest, hparts, Option.bind_eq_bind,
    Option.bind_some]

end Calendar

namespace Date

theorem ofTightText?_text (d : Date) : ofTightText? d.text = some d := by
  have h := Calendar.scanDate_chars false d [] (by simp)
  rw [List.append_nil] at h
  rw [ofTightText?, text, String.toList_ofList, h]
  rfl

theorem ofText?_text (d : Date) : ofText? d.text = some d := by
  have h := Calendar.scanDate_chars true d [] (by simp)
  rw [List.append_nil] at h
  rw [ofText?, text, String.toList_ofList, h]
  rfl

/-! ## The characters of a date -/

theorem isBlankChar_of_mem_yearChars {year : Int} {c : Char} (h : c ∈ yearChars year) :
    Text.isBlankChar c = false := by
  cases year with
  | ofNat n =>
      rw [yearChars] at h
      split at h
      · exact Text.isBlankChar_of_isDigit (Numeral.isDigit_of_mem_padded h)
      · rcases List.mem_cons.mp h with rfl | h
        · decide
        · exact Text.isBlankChar_of_isDigit (Numeral.isDigit_of_mem_digits h)
  | negSucc n =>
      rcases List.mem_cons.mp h with rfl | h
      · decide
      · exact Text.isBlankChar_of_isDigit (Numeral.isDigit_of_mem_padded h)

theorem isBlankChar_of_mem_text {d : Date} {c : Char} (h : c ∈ d.text.toList) :
    Text.isBlankChar c = false := by
  rw [text, String.toList_ofList, chars, List.append_assoc, List.mem_append, List.cons_append,
    List.mem_cons, List.mem_append, List.mem_cons] at h
  rcases h with h | rfl | h | rfl | h
  · exact isBlankChar_of_mem_yearChars h
  · decide
  · exact Text.isBlankChar_of_isDigit (Numeral.isDigit_of_mem_padded h)
  · decide
  · exact Text.isBlankChar_of_isDigit (Numeral.isDigit_of_mem_padded h)

theorem hyphen_mem_text (d : Date) : '-' ∈ d.text.toList := by
  simp [text, chars]

end Date

end InstanceConsole

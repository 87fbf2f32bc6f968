import InstanceConsole.Calendar.Timestamp
import InstanceConsole.Proofs.Calendar.DateText

/-!
# Timestamps read back

A timestamp that is written is read as the same timestamp: a leap second stays one, and a fraction
keeps its nanoseconds, however few digits it is written with. The exception is a leap second after
another second than the last of a minute. Its text is that of the plain second which comes next, and
is read as this, `asRead`. No text is read as such a leap second.
-/

set_option autoImplicit false

namespace InstanceConsole

namespace Calendar

/-! ## The parts of a day -/

theorem scanBelow_padded (bound : Nat) (hbound : bound ≤ 100) (n : Fin bound) {rest : List Char}
    (hrest : ∀ c ∈ rest.head?, Numeral.isDigit c = false) :
    scanBelow bound (Numeral.padded 2 n ++ rest) = some (n, rest) := by
  have hn : (n : Nat) < 100 := by omega
  rw [scanBelow, scanNumber_padded hn hrest, Option.bind_eq_bind, Option.bind_some]
  exact dif_pos n.isLt

/-- A fraction of `width` digits counts in units of `9 - width` more. -/
theorem scanFraction_padded {width n : Nat} (hwidth : width ≤ 9) (hn : n < Nat.pow 10 width)
    (hpos : 0 < width) {rest : List Char} (hrest : ∀ c ∈ rest.head?, Numeral.isDigit c = false) :
    scanFraction ('.' :: (Numeral.padded width n ++ rest)) =
      some (n * Nat.pow 10 (9 - width), rest) := by
  have hdigits : (Numeral.digits n).length ≤ width :=
    (Nat.length_toDigits_le_iff (by omega) hpos).mpr hn
  have hlength : (Numeral.padded width n).length = width := Numeral.length_padded hdigits
  have hfront : ∀ c ∈ Numeral.padded width n, c.isDigit = true :=
    fun _ => Numeral.isDigit_of_mem_padded
  have htake : Numeral.takeDigits 9 (Numeral.padded width n ++ rest) =
      (Numeral.padded width n, rest) := Numeral.takeDigits_append hfront hrest (by omega)
  have hdrop : rest.dropWhile Numeral.isDigit = rest :=
    @Numeral.dropWhile_isDigit_append [] rest (by simp) hrest
  rw [scanFraction]
  simp only [htake, Numeral.value?_padded, hlength, hdrop, Option.bind_eq_bind, Option.bind_some]

/-- A fraction is less than a second, since digits after the ninth do not count. -/
theorem lt_of_scanFraction {cs rest : List Char} {nano : Nat}
    (h : scanFraction cs = some (nano, rest)) : nano < 1000000000 := by
  unfold scanFraction at h
  split at h
  · next cs =>
      have hlength := Numeral.length_takeDigits_le 9 cs
      obtain ⟨value, hvalue, h⟩ := Option.bind_eq_some_iff.mp h
      have hlt := Numeral.lt_of_value? hvalue
      obtain ⟨rfl, -⟩ := Prod.mk.inj (Option.some.inj h)
      calc value * Nat.pow 10 (9 - (Numeral.takeDigits 9 cs).1.length)
          < Nat.pow 10 (Numeral.takeDigits 9 cs).1.length *
              Nat.pow 10 (9 - (Numeral.takeDigits 9 cs).1.length) :=
            Nat.mul_lt_mul_of_pos_right hlt (Nat.pow_pos (by decide))
        _ = Nat.pow 10 ((Numeral.takeDigits 9 cs).1.length +
              (9 - (Numeral.takeDigits 9 cs).1.length)) := (Nat.pow_add ..).symm
        _ = 1000000000 := by rw [Nat.add_sub_cancel' hlength]
  · obtain ⟨rfl, -⟩ := Prod.mk.inj (Option.some.inj h)
    decide

end Calendar

namespace Timestamp

/-- A fraction is left out when it is zero, and has at most nine digits otherwise: the digits that
are left out are zeros. -/
theorem fractionChars_eq {nano : Nat} (hnano : nano < 1000000000) :
    nano = 0 ∧ fractionChars nano = [] ∨
      ∃ width n, 0 < width ∧ width ≤ 9 ∧ n < Nat.pow 10 width ∧
        n * Nat.pow 10 (9 - width) = nano ∧
        fractionChars nano = '.' :: Numeral.padded width n := by
  unfold fractionChars
  by_cases hzero : nano = 0
  · exact .inl ⟨hzero, if_pos hzero⟩
  right
  rw [if_neg hzero]
  by_cases hmillis : nano % 1000000 = 0
  · have hlt : nano / 1000000 < 1000 := by omega
    have hback : nano / 1000000 * 1000000 = nano := by omega
    exact ⟨3, nano / 1000000, by decide, by decide, hlt, hback, if_pos hmillis⟩
  rw [if_neg hmillis]
  by_cases hmicros : nano % 1000 = 0
  · have hlt : nano / 1000 < 1000000 := by omega
    have hback : nano / 1000 * 1000 = nano := by omega
    exact ⟨6, nano / 1000, by decide, by decide, hlt, hback, if_pos hmicros⟩
  · exact ⟨9, nano, by decide, by decide, hnano, Nat.mul_one nano, if_neg hmicros⟩

theorem scanFraction_fractionChars {nano : Nat} (hnano : nano < 1000000000) (rest : List Char) :
    Calendar.scanFraction (fractionChars nano ++ 'Z' :: rest) = some (nano, 'Z' :: rest) := by
  rcases fractionChars_eq hnano with ⟨rfl, hnone⟩ | ⟨width, n, hpos, hwidth, hn, hback, hdigits⟩
  · rw [hnone]
    rfl
  · rw [hdigits, List.cons_append, Calendar.scanFraction_padded hwidth hn hpos
      (Calendar.isDigit_head?_cons (by decide) _), hback]

/-- The end of a fraction, or of the seconds where there is none, is no digit. -/
theorem isDigit_head?_fractionChars {nano : Nat} (hnano : nano < 1000000000) (rest : List Char) :
    ∀ c ∈ (fractionChars nano ++ 'Z' :: rest).head?, Numeral.isDigit c = false := by
  rcases fractionChars_eq hnano with ⟨-, hnone⟩ | ⟨width, n, -, -, -, -, hdigits⟩
  · rw [hnone]
    exact Calendar.isDigit_head?_cons (by decide) _
  · rw [hdigits]
    exact Calendar.isDigit_head?_cons (by decide) _

/-! ## Leap seconds -/

/-- A leap second, if the timestamp lies in one, is second 60 of its minute. -/
def LeapEndsMinute (t : Timestamp) : Prop := nanosPerSecond ≤ t.nano → (t.second : Nat) = 59

instance (t : Timestamp) : Decidable t.LeapEndsMinute :=
  inferInstanceAs (Decidable (nanosPerSecond ≤ t.nano → (t.second : Nat) = 59))

theorem not_leapEndsMinute_iff {t : Timestamp} :
    ¬ t.LeapEndsMinute ↔ nanosPerSecond ≤ t.nano ∧ (t.second : Nat) ≠ 59 :=
  Decidable.not_imp_iff_and_not

/-- The timestamp that the text of a timestamp stands for. -/
def asRead (t : Timestamp) : Timestamp :=
  ofShown t.date t.hour t.minute t.shownSecond t.shownNano

theorem shownSecond_le (t : Timestamp) : t.shownSecond ≤ 60 := by
  have hsecond := t.second.isLt
  have hnano := t.nano.isLt
  simp only [shownSecond, nanosPerSecond]
  omega

theorem shownNano_lt (t : Timestamp) : t.shownNano < 1000000000 :=
  Nat.mod_lt _ (by decide)

/-- What is shown outside of a leap second. -/
theorem shown_of_lt {t : Timestamp} (h : (t.nano : Nat) < nanosPerSecond) :
    t.shownSecond = t.second ∧ t.shownNano = t.nano := by
  rw [shownSecond, shownNano, Nat.div_eq_of_lt h, Nat.mod_eq_of_lt h]
  exact ⟨Nat.add_zero _, rfl⟩

/-- What is shown in a leap second. -/
theorem shown_of_le {t : Timestamp} (h : nanosPerSecond ≤ t.nano) :
    t.shownSecond = t.second + 1 ∧ t.shownNano = t.nano - nanosPerSecond := by
  have hnano := t.nano.isLt
  simp only [nanosPerSecond, shownSecond, shownNano] at h ⊢
  omega

/-- A leap second at the end of a minute is read as itself, as is all that is in no leap second. -/
theorem asRead_eq_self {t : Timestamp} (h : t.LeapEndsMinute) : t.asRead = t := by
  have hsecond := t.second.isLt
  have hnano := t.nano.isLt
  unfold asRead ofShown
  by_cases hleap : nanosPerSecond ≤ t.nano
  · have hend : (t.second : Nat) = 59 := h hleap
    have hlast : 59 = t.second := Fin.ext hend.symm
    obtain ⟨hshown, hrest⟩ := shown_of_le hleap
    have hsame : Fin.ofNat 2000000000 (nanosPerSecond + (t.nano - nanosPerSecond)) = t.nano := by
      rw [Nat.add_sub_cancel' hleap]
      exact Fin.ext (Nat.mod_eq_of_lt hnano)
    rw [if_neg (by omega), hrest, hsame, hlast]
  · obtain ⟨hshown, hrest⟩ := shown_of_lt (Nat.lt_of_not_le hleap)
    have hsame : Fin.ofNat 60 t.second = t.second := Fin.ext (Nat.mod_eq_of_lt hsecond)
    have hsameNano : Fin.ofNat 2000000000 t.nano = t.nano := Fin.ext (Nat.mod_eq_of_lt hnano)
    rw [hshown, hrest, if_pos hsecond, hsame, hsameNano]

/-- Every other leap second is read as the plain second that comes next. -/
theorem asRead_of_leap {t : Timestamp} (hleap : nanosPerSecond ≤ t.nano)
    (hsecond : (t.second : Nat) ≠ 59) :
    t.asRead.date = t.date ∧ t.asRead.hour = t.hour ∧ t.asRead.minute = t.minute ∧
      (t.asRead.second : Nat) = t.second + 1 ∧ (t.asRead.nano : Nat) = t.nano - nanosPerSecond := by
  have hnano := t.nano.isLt
  have hlt : (t.second : Nat) + 1 < 60 := by
    have hle := t.second.isLt
    omega
  obtain ⟨hshown, hrest⟩ := shown_of_le hleap
  rw [asRead, ofShown, hshown, hrest, if_pos hlt]
  exact ⟨rfl, rfl, rfl, Nat.mod_eq_of_lt hlt, Nat.mod_eq_of_lt (by omega)⟩

/-- **The timestamps that their texts stand for** are those that are in no leap second, or in one at
the end of a minute. -/
theorem asRead_eq_self_iff {t : Timestamp} : t.asRead = t ↔ t.LeapEndsMinute := by
  refine ⟨fun hself hleap => Decidable.byContradiction fun hsecond => ?_, asRead_eq_self⟩
  obtain ⟨-, -, -, hnext, -⟩ := asRead_of_leap hleap hsecond
  rw [hself] at hnext
  omega

/-- A leap second in the middle of a minute. -/
def leapWithinMinute : Timestamp where
  date := ⟨2016, 12, 31, by decide⟩
  hour := ⟨12, by decide⟩
  minute := ⟨30, by decide⟩
  second := ⟨15, by decide⟩
  nano := ⟨1500000000, by decide⟩

theorem asRead_leapWithinMinute_ne : leapWithinMinute.asRead ≠ leapWithinMinute := by decide

theorem leapEndsMinute_ofShown (date : Date) (hour : Fin 24) (minute : Fin 60) (second : Nat)
    {nano : Nat} (hnano : nano < 1000000000) :
    (ofShown date hour minute second nano).LeapEndsMinute := by
  intro hleap
  unfold ofShown at hleap ⊢
  split at hleap
  · have hval : ((Fin.ofNat 2000000000 nano : Fin 2000000000) : Nat) = nano :=
      Nat.mod_eq_of_lt (by omega)
    simp only [hval, nanosPerSecond] at hleap
    omega
  · next hlast =>
      rw [if_neg hlast]
      rfl

/-! ## Whole timestamps -/

/-- Local time without an offset is UTC. -/
theorem ofLocal?_zero (t : Timestamp) : ofLocal? t 0 = some t := by
  have hhour := t.hour.isLt
  have hminute := t.minute.isLt
  have hminutes : ((t.hour * 60 + t.minute - 0 : Int)).toNat = t.hour * 60 + t.minute := by omega
  unfold ofLocal?
  simp only
  rw [if_neg (by omega), if_pos (by omega), hminutes]
  have hh : Fin.ofNat 24 ((t.hour * 60 + t.minute) / 60) = t.hour :=
    Fin.ext (by simp only [Fin.ofNat]; omega)
  have hm : Fin.ofNat 60 ((t.hour * 60 + t.minute) % 60) = t.minute :=
    Fin.ext (by simp only [Fin.ofNat]; omega)
  rw [hh, hm]

/-- **A timestamp that is written is read**, as its text shows it. -/
theorem ofText?_text (t : Timestamp) : ofText? t.text = some t.asRead := by
  have hcolon : ∀ cs : List Char, ∀ c ∈ (':' :: cs).head?, Numeral.isDigit c = false :=
    Calendar.isDigit_head?_cons (by decide)
  have hmark : ∀ cs, Calendar.scanSpacedMark true ':' (':' :: cs) = some cs :=
    Calendar.scanSpacedMark_cons true (by decide)
  have hsecond : t.shownSecond < 61 := Nat.lt_succ_of_le t.shownSecond_le
  have hclock : ∀ cs, Calendar.scanClockMark ('T' :: cs) = some cs := fun _ => rfl
  have hzone : Calendar.scanOffset (Text.trimFront ['Z']) = some (0, []) := by decide
  have hend : (guard (Text.trimFront [] = []) : Option Unit) = some () := if_pos rfl
  have hday : (guard ((0 : Int).natAbs < 1440) : Option Unit) = some () := if_pos (by decide)
  have hchars : t.text.toList = t.date.chars ++ 'T' :: (Numeral.padded 2 t.hour ++
      ':' :: (Numeral.padded 2 t.minute ++
        ':' :: (Numeral.padded 2 t.shownSecond ++ (fractionChars t.shownNano ++ ['Z'])))) := by
    rw [text, String.toList_ofList, chars]
    simp only [List.append_assoc, List.cons_append]
  rw [ofText?, hchars, Calendar.scanDate_chars true t.date _
    (Calendar.isDigit_head?_cons (by decide) _)]
  dsimp only [Option.bind_eq_bind, Option.bind_some]
  rw [hclock, Option.bind_some, Calendar.scanBelow_padded 24 (by omega) t.hour (hcolon _),
    Option.bind_some, hmark, Option.bind_some,
    Calendar.scanBelow_padded 60 (by omega) t.minute (hcolon _), Option.bind_some, hmark,
    Option.bind_some, Calendar.scanBelow_padded 61 (by omega) ⟨t.shownSecond, hsecond⟩
      (isDigit_head?_fractionChars t.shownNano_lt []),
    Option.bind_some, scanFraction_fractionChars t.shownNano_lt [], Option.bind_some, hzone,
    Option.bind_some, hend, Option.bind_some, hday, Option.bind_some]
  exact ofLocal?_zero t.asRead

theorem LeapEndsMinute.ofLocal? {t moment : Timestamp} {offset : Int} (ht : t.LeapEndsMinute)
    (h : t.ofLocal? offset = some moment) : moment.LeapEndsMinute := by
  unfold Timestamp.ofLocal? at h
  dsimp only at h
  -- An offset moves hours and minutes, and may move the date.
  split at h
  · obtain ⟨date, -, rfl⟩ := Option.map_eq_some_iff.mp h
    exact ht
  · split at h
    · obtain rfl := Option.some.inj h
      exact ht
    · obtain ⟨date, -, rfl⟩ := Option.map_eq_some_iff.mp h
      exact ht

/-- Texts are read as leap seconds at the end of a minute only. -/
theorem leapEndsMinute_of_ofText? {s : String} {t : Timestamp} (h : ofText? s = some t) :
    t.LeapEndsMinute := by
  rw [ofText?] at h
  obtain ⟨⟨date, cs⟩, -, h⟩ := Option.bind_eq_some_iff.mp h
  obtain ⟨cs, -, h⟩ := Option.bind_eq_some_iff.mp h
  obtain ⟨⟨hour, cs⟩, -, h⟩ := Option.bind_eq_some_iff.mp h
  obtain ⟨cs, -, h⟩ := Option.bind_eq_some_iff.mp h
  obtain ⟨⟨minute, cs⟩, -, h⟩ := Option.bind_eq_some_iff.mp h
  obtain ⟨cs, -, h⟩ := Option.bind_eq_some_iff.mp h
  obtain ⟨⟨second, cs⟩, -, h⟩ := Option.bind_eq_some_iff.mp h
  obtain ⟨⟨nano, cs⟩, hfraction, h⟩ := Option.bind_eq_some_iff.mp h
  obtain ⟨⟨offset, cs⟩, -, h⟩ := Option.bind_eq_some_iff.mp h
  obtain ⟨-, -, h⟩ := Option.bind_eq_some_iff.mp h
  obtain ⟨-, -, h⟩ := Option.bind_eq_some_iff.mp h
  have hnano := Calendar.lt_of_scanFraction hfraction
  exact (leapEndsMinute_ofShown date hour minute second hnano).ofLocal? h

end Timestamp

end InstanceConsole

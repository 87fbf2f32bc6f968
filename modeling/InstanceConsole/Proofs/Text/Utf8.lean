import InstanceConsole.Proofs.Basic
import InstanceConsole.Text.Utf8

/-!
# UTF-8 read back

The bytes of a text decode to its characters: every character is completed by its own bytes, and
the reader then stands between characters again. The byte of a character of ASCII stands for that
character only, so a text may be cut at it before it is encoded or afterwards.
-/

set_option autoImplicit false

namespace InstanceConsole.Utf8

/-! ## One character

The four lengths of an encoded character are four ranges of code points. In each the first byte
says how many bytes follow and bounds the next one, and the bits of all of them make up the code
point again. -/

theorem toNat_ofNat_of_lt {n : Nat} (h : n < 256) : (UInt8.ofNat n).toNat = n := by
  rw [UInt8.toNat_ofNat']
  exact Nat.mod_eq_of_lt h

/-- A byte that may stand inside a character adds six bits to its value. -/
theorem decodeFrom_inside {count low high value b : Nat} (hb : b < 256) (hlow : low ≤ b)
    (hhigh : b ≤ high) (rest : List UInt8) :
    decodeFrom (.inside count low high value) (UInt8.ofNat b :: rest) =
      if count ≤ 1 then
        some (Char.ofNat (value * 0x40 + (b - 0x80))) :: decodeFrom .none rest
      else decodeFrom (.inside (count - 1) 0x80 0xBF (value * 0x40 + (b - 0x80))) rest := by
  rw [decodeFrom, toNat_ofNat_of_lt hb]
  by_cases hc : count ≤ 1 <;> simp [step, hlow, hhigh, hc]

theorem decodeFrom_lead {b : Nat} {p : Pending} (hb : b < 256) (h : lead b = some (.inr p))
    (rest : List UInt8) : decodeFrom .none (UInt8.ofNat b :: rest) = decodeFrom p rest := by
  rw [decodeFrom, toNat_ofNat_of_lt hb]
  simp [step, begin, h]

/-- The first of two bytes. -/
theorem lead_two {n : Nat} (h : 0x80 ≤ n) (h' : n < 0x800) :
    lead (0xC0 + n / 0x40) = some (.inr (.inside 1 0x80 0xBF (n / 0x40))) := by
  rw [lead, if_neg (by omega), if_neg (by omega), if_pos (by omega),
    show 0xC0 + n / 0x40 - 0xC0 = n / 0x40 by omega]

/-- The first of three bytes. After two of them the next byte has narrower bounds, which leave
out the code points that have a shorter form and those of surrogates. -/
theorem lead_three {n : Nat} (h : 0x800 ≤ n) (h' : n < 0xD800 ∨ 0xDFFF < n ∧ n < 0x10000) :
    ∃ low high, lead (0xE0 + n / 0x1000) = some (.inr (.inside 2 low high (n / 0x1000))) ∧
      low ≤ 0x80 + n / 0x40 % 0x40 ∧ 0x80 + n / 0x40 % 0x40 ≤ high := by
  by_cases h0 : n < 0x1000
  · -- Below this bound some code points have a form of two bytes.
    refine ⟨0xA0, 0xBF, ?_, by omega, by omega⟩
    rw [show n / 0x1000 = 0 by omega]
    rfl
  · by_cases hD : n / 0x1000 = 0xD
    · -- The surrogates make up the upper half of this range.
      refine ⟨0x80, 0x9F, ?_, by omega, by omega⟩
      rw [hD]
      rfl
    · refine ⟨0x80, 0xBF, ?_, by omega, by omega⟩
      rw [lead, if_neg (by omega), if_neg (by omega), if_neg (by omega), if_neg (by omega),
        if_neg (by omega), if_pos (by omega),
        show 0xE0 + n / 0x1000 - 0xE0 = n / 0x1000 by omega]

/-- The first of four bytes. Here the bounds leave out what has a form of three bytes, and what is
beyond the last code point. -/
theorem lead_four {n : Nat} (h : 0x10000 ≤ n) (h' : n < 0x110000) :
    ∃ low high, lead (0xF0 + n / 0x40000) = some (.inr (.inside 3 low high (n / 0x40000))) ∧
      low ≤ 0x80 + n / 0x1000 % 0x40 ∧ 0x80 + n / 0x1000 % 0x40 ≤ high := by
  by_cases h0 : n < 0x40000
  · refine ⟨0x90, 0xBF, ?_, by omega, by omega⟩
    rw [show n / 0x40000 = 0 by omega]
    rfl
  · by_cases h4 : n / 0x40000 = 4
    · refine ⟨0x80, 0x8F, ?_, by omega, by omega⟩
      rw [h4]
      rfl
    · refine ⟨0x80, 0xBF, ?_, by omega, by omega⟩
      rw [lead, if_neg (by omega), if_neg (by omega), if_neg (by omega), if_neg (by omega),
        if_neg (by omega), if_neg (by omega), if_neg (by omega), if_pos (by omega),
        show 0xF0 + n / 0x40000 - 0xF0 = n / 0x40000 by omega]

theorem decodeFrom_encodeChar (c : Char) (rest : List UInt8) :
    decodeFrom .none (encodeChar c ++ rest) = some c :: decodeFrom .none rest := by
  have hvalid : c.toNat < 0xD800 ∨ 0xDFFF < c.toNat ∧ c.toNat < 0x110000 := c.valid
  have hself : Char.ofNat c.toNat = c := Char.ofNat_toNat c
  rw [encodeChar]
  generalize c.toNat = n at hvalid hself
  subst hself
  -- One byte, two, three or four.
  by_cases h1 : n < 0x80
  · simp only [h1, if_true, List.cons_append, List.nil_append]
    rw [decodeFrom, toNat_ofNat_of_lt (by omega)]
    simp [step, begin, lead, h1]
  · by_cases h2 : n < 0x800
    · simp only [h1, h2, if_true, if_false, List.cons_append, List.nil_append]
      rw [decodeFrom_lead (by omega) (lead_two (by omega) h2),
        decodeFrom_inside (by omega) (by omega) (by omega), if_pos (by omega),
        show n / 0x40 * 0x40 + (0x80 + n % 0x40 - 0x80) = n by omega]
    · by_cases h3 : n < 0x10000
      · simp only [h1, h2, h3, if_true, if_false, List.cons_append, List.nil_append]
        obtain ⟨low, high, hlead, hlow, hhigh⟩ := lead_three (n := n) (by omega) (by omega)
        rw [decodeFrom_lead (by omega) hlead, decodeFrom_inside (by omega) hlow hhigh,
          if_neg (by omega), decodeFrom_inside (by omega) (by omega) (by omega),
          if_pos (by omega),
          show (n / 0x1000 * 0x40 + (0x80 + n / 0x40 % 0x40 - 0x80)) * 0x40
            + (0x80 + n % 0x40 - 0x80) = n by omega]
      · simp only [h1, h2, h3, if_false, List.cons_append, List.nil_append]
        obtain ⟨low, high, hlead, hlow, hhigh⟩ := lead_four (n := n) (by omega) (by omega)
        rw [decodeFrom_lead (by omega) hlead, decodeFrom_inside (by omega) hlow hhigh,
          if_neg (by omega), decodeFrom_inside (by omega) (by omega) (by omega),
          if_neg (by omega), decodeFrom_inside (by omega) (by omega) (by omega),
          if_pos (by omega),
          show ((n / 0x40000 * 0x40 + (0x80 + n / 0x1000 % 0x40 - 0x80)) * 0x40
            + (0x80 + n / 0x40 % 0x40 - 0x80)) * 0x40 + (0x80 + n % 0x40 - 0x80) = n by omega]

/-! ## Texts -/

theorem decode_encode (cs : List Char) : decode (encode cs) = cs.map some := by
  induction cs with
  | nil => rfl
  | cons c cs ih =>
      rw [decode, encode, List.flatMap_cons, decodeFrom_encodeChar, List.map_cons]
      exact congrArg (some c :: ·) ih

/-- Nothing is replaced in a text that was encoded. -/
theorem decodeLossy_ofString (s : String) : decodeLossy (ofString s) = s := by
  have hid : (fun o : Option Char => o.getD '\uFFFD') ∘ some = id := rfl
  rw [decodeLossy, ofString, decode_encode, List.map_map, hid, List.map_id, String.ofList_toList]

/-- A character of ASCII is one byte. -/
theorem encodeChar_of_lt {c : Char} (h : c.toNat < 0x80) :
    encodeChar c = [UInt8.ofNat c.toNat] := by
  simp [encodeChar, h]

/-! ## Cutting at a character of ASCII -/

/-- Outside ASCII every byte of a character has its upper bit set. -/
theorem le_of_mem_encodeChar {c : Char} (h : ¬ c.toNat < 0x80) {b : UInt8}
    (hb : b ∈ encodeChar c) : 0x80 ≤ b.toNat := by
  have hvalid : c.toNat < 0xD800 ∨ 0xDFFF < c.toNat ∧ c.toNat < 0x110000 := c.valid
  have hbyte (k : Nat) (hlow : 0x80 ≤ k) (hhigh : k < 256) : 0x80 ≤ (UInt8.ofNat k).toNat := by
    rw [toNat_ofNat_of_lt hhigh]
    exact hlow
  rw [encodeChar] at hb
  generalize c.toNat = n at h hb hvalid
  simp only [if_neg h] at hb
  -- Two bytes, three or four.
  split at hb
  · simp only [List.mem_cons, List.not_mem_nil, or_false] at hb
    rcases hb with rfl | rfl
    · exact hbyte _ (by omega) (by omega)
    · exact hbyte _ (by omega) (by omega)
  · split at hb
    · simp only [List.mem_cons, List.not_mem_nil, or_false] at hb
      rcases hb with rfl | rfl | rfl
      · exact hbyte _ (by omega) (by omega)
      · exact hbyte _ (by omega) (by omega)
      · exact hbyte _ (by omega) (by omega)
    · simp only [List.mem_cons, List.not_mem_nil, or_false] at hb
      rcases hb with rfl | rfl | rfl | rfl
      · exact hbyte _ (by omega) (by omega)
      · exact hbyte _ (by omega) (by omega)
      · exact hbyte _ (by omega) (by omega)
      · exact hbyte _ (by omega) (by omega)

section Marks

variable {m : Char} (hm : m.toNat < 0x80)

include hm

/-- The byte of a character of ASCII stands in no other character. -/
theorem notMem_encodeChar {c : Char} (hc : c ≠ m) : UInt8.ofNat m.toNat ∉ encodeChar c := by
  intro hb
  have hmark : (UInt8.ofNat m.toNat).toNat = m.toNat := toNat_ofNat_of_lt (by omega)
  by_cases h : c.toNat < 0x80
  · rw [encodeChar_of_lt h, List.mem_singleton] at hb
    have htoNat := congrArg UInt8.toNat hb
    rw [hmark, toNat_ofNat_of_lt (by omega)] at htoNat
    exact hc (Char.toNat_inj.mp htoNat.symm)
  · have hhigh := le_of_mem_encodeChar h hb
    omega

/-- Cutting the bytes of a text is cutting the text. -/
theorem splitOn_encode (cs : List Char) :
    (encode cs).splitOn (UInt8.ofNat m.toNat) = (cs.splitOn m).map encode := by
  induction cs with
  | nil => simp [encode]
  | cons c cs ih =>
      have hencode : encode (c :: cs) = encodeChar c ++ encode cs := List.flatMap_cons
      by_cases hc : c = m
      · subst hc
        have hcut : encodeChar c ++ encode cs = [] ++ UInt8.ofNat c.toNat :: encode cs := by
          rw [encodeChar_of_lt hm]
          rfl
        have htext : c :: cs = [] ++ c :: cs := rfl
        rw [hencode, hcut, List.splitOn_append_cons_self, ih, htext,
          List.splitOn_append_cons_self, List.map_append]
        simp [encode]
      · rw [hencode, splitOn_append_of_notMem (notMem_encodeChar hm hc), ih,
          List.splitOn_cons_eq_if_modifyHead, if_neg (by simpa using hc)]
        cases cs.splitOn m with
        | nil => rfl
        | cons piece pieces => simp [encode]

theorem takeWhile_encode (cs : List Char) :
    (encode cs).takeWhile (· != UInt8.ofNat m.toNat) = encode (cs.takeWhile (· != m)) := by
  induction cs with
  | nil => rfl
  | cons c cs ih =>
      have hencode : encode (c :: cs) = encodeChar c ++ encode cs := List.flatMap_cons
      by_cases hc : c = m
      · subst hc
        rw [hencode, encodeChar_of_lt hm]
        simp [encode]
      · have hplain : ∀ b ∈ encodeChar c, (b != UInt8.ofNat m.toNat) = true := by
          intro b hb
          rw [bne_iff_ne]
          rintro rfl
          exact notMem_encodeChar hm hc hb
        rw [hencode, List.takeWhile_append_of_pos hplain, ih,
          List.takeWhile_cons_of_pos (by simpa using hc)]
        exact List.flatMap_cons.symm

end Marks

end InstanceConsole.Utf8

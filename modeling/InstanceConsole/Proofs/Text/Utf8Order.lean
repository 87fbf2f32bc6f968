import InstanceConsole.Proofs.Text.Utf8

/-!
# The order of texts and of their bytes

The code points of two texts and their bytes compare the same way. A shorter encoding begins with
a lesser byte, and two encodings of one length differ where the bits of their code points do.
-/

set_option autoImplicit false

namespace InstanceConsole.Utf8

/-! ## One character -/

theorem ofNat_cons_lt {a b : Nat} (hb : b < 256) (hle : a ≤ b) {as bs : List UInt8}
    (h : a = b → as < bs) : UInt8.ofNat a :: as < UInt8.ofNat b :: bs := by
  rw [List.cons_lt_cons_iff, UInt8.lt_iff_toNat_lt, toNat_ofNat_of_lt (by omega),
    toNat_ofNat_of_lt hb]
  rcases Nat.lt_or_eq_of_le hle with hlt | rfl
  · exact .inl hlt
  · exact .inr ⟨rfl, h rfl⟩

/-- The bytes of two characters are in the order of their code points, whatever follows. -/
theorem encodeChar_append_lt {c d : Char} (h : c.toNat < d.toNat) (as bs : List UInt8) :
    encodeChar c ++ as < encodeChar d ++ bs := by
  have hvalid : d.toNat < 0xD800 ∨ 0xDFFF < d.toNat ∧ d.toNat < 0x110000 := d.valid
  rw [encodeChar, encodeChar]
  generalize c.toNat = n at h
  generalize d.toNat = m at h hvalid
  -- One byte for the second character, two, three or four; the first one has no more.
  by_cases m1 : m < 0x80
  · rw [if_pos (by omega : n < 0x80), if_pos m1]
    exact ofNat_cons_lt (by omega) (by omega) fun _ => by omega
  rw [if_neg m1]
  by_cases n1 : n < 0x80
  · rw [if_pos n1]
    split
    · exact ofNat_cons_lt (by omega) (by omega) fun _ => by omega
    · split
      · exact ofNat_cons_lt (by omega) (by omega) fun _ => by omega
      · exact ofNat_cons_lt (by omega) (by omega) fun _ => by omega
  rw [if_neg n1]
  by_cases m2 : m < 0x800
  · rw [if_pos (by omega : n < 0x800), if_pos m2]
    exact ofNat_cons_lt (by omega) (by omega) fun _ =>
      ofNat_cons_lt (by omega) (by omega) fun _ => by omega
  rw [if_neg m2]
  by_cases n2 : n < 0x800
  · rw [if_pos n2]
    split
    · exact ofNat_cons_lt (by omega) (by omega) fun _ => by omega
    · exact ofNat_cons_lt (by omega) (by omega) fun _ => by omega
  rw [if_neg n2]
  by_cases m3 : m < 0x10000
  · rw [if_pos (by omega : n < 0x10000), if_pos m3]
    exact ofNat_cons_lt (by omega) (by omega) fun _ =>
      ofNat_cons_lt (by omega) (by omega) fun _ =>
      ofNat_cons_lt (by omega) (by omega) fun _ => by omega
  rw [if_neg m3]
  by_cases n3 : n < 0x10000
  · rw [if_pos n3]
    exact ofNat_cons_lt (by omega) (by omega) fun _ => by omega
  · rw [if_neg n3]
    exact ofNat_cons_lt (by omega) (by omega) fun _ =>
      ofNat_cons_lt (by omega) (by omega) fun _ =>
      ofNat_cons_lt (by omega) (by omega) fun _ =>
      ofNat_cons_lt (by omega) (by omega) fun _ => by omega

/-! ## Texts -/

theorem nil_lt_encodeChar_append (c : Char) (bs : List UInt8) : [] < encodeChar c ++ bs := by
  rw [encodeChar]
  split
  · exact List.nil_lt_cons _ _
  · split
    · exact List.nil_lt_cons _ _
    · split
      · exact List.nil_lt_cons _ _
      · exact List.nil_lt_cons _ _

theorem encode_lt_encode {cs ds : List Char} (h : cs < ds) : encode cs < encode ds := by
  induction cs generalizing ds with
  | nil =>
      cases ds with
      | nil => exact absurd h (List.not_lt_nil _)
      | cons d ds => exact nil_lt_encodeChar_append d (encode ds)
  | cons c cs ih =>
      cases ds with
      | nil => exact absurd h (List.not_lt_nil _)
      | cons d ds =>
          rcases List.cons_lt_cons_iff.mp h with hcd | ⟨rfl, hrest⟩
          · exact encodeChar_append_lt hcd (encode cs) (encode ds)
          · exact List.append_left_lt (ih hrest)

/-- **Texts are in the order of their bytes.** -/
theorem ofString_lt_ofString_iff {s t : String} : ofString s < ofString t ↔ s < t := by
  have hmono : ∀ {x y : String}, x < y → ofString x < ofString y :=
    fun h => encode_lt_encode (String.lt_iff.mp h)
  refine ⟨fun h => ?_, hmono⟩
  by_cases hle : t ≤ s
  · -- Otherwise the bytes are the same, or in the opposite order.
    by_cases heq : s = t
    · rw [heq] at h
      exact absurd h (List.lt_irrefl _)
    · exact absurd (hmono (Std.lt_of_le_of_ne hle (Ne.symm heq))) (List.lt_asymm h)
  · exact String.not_le.mp hle

end InstanceConsole.Utf8

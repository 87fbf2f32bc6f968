import InstanceConsole.Proofs.Text.Numeral
import InstanceConsole.Proofs.Text.Utf8
import InstanceConsole.Web.FormEncoding

/-!
# Form encoding read back

A pair that is encoded and read again gives its name and its value, `decode_encodePair`. Two
things make it so: what stands for one byte is turned back into that byte, and no ampersand or
equals sign stands in an encoded component, so that the text is cut in the right places. Any text
with an ampersand in it has the pairs of both its parts, and their names are those of its pieces.
-/

set_option autoImplicit false

namespace InstanceConsole.FormEncoding

/-! ## The bytes of an encoded byte -/

/-- The byte of a hexadecimal digit in upper case. -/
def hexByte (n : Nat) : UInt8 := UInt8.ofNat (Numeral.upperHexDigit n).toNat

theorem encodeChar_upperHexDigit :
    ∀ n < 16, Utf8.encodeChar (Numeral.upperHexDigit n) = [hexByte n] := by decide

theorem hexDigit?_hexByte :
    ∀ n < 16, Numeral.hexDigit? (Char.ofNat (hexByte n).toNat) = some n := by decide

theorem hexByte_ne_mark :
    ∀ n < 16, hexByte n ≠ 0x26 ∧ hexByte n ≠ 0x2B ∧ hexByte n ≠ 0x3D := by decide

theorem encodeChar_ofNat_toNat {b : UInt8} (h : b < 0x80) :
    Utf8.encodeChar (Char.ofNat b.toNat) = [b] := by
  have hb : b.toNat < 0x80 := by simpa [UInt8.lt_iff_toNat_lt] using h
  have hc : (Char.ofNat b.toNat).toNat = b.toNat := by
    have hvalid : b.toNat.isValidChar := Or.inl (by omega)
    rw [Char.ofNat, dif_pos hvalid]
    rfl
  rw [Utf8.encodeChar_of_lt (by omega), hc, UInt8.ofNat_toNat]

/-- A byte that stands for itself is in ASCII and is none of the marks of the encoding. -/
theorem lt_and_ne_mark_of_isPlain {b : UInt8} (h : isPlain b = true) :
    b < 0x80 ∧ b ≠ 0x25 ∧ b ≠ 0x26 ∧ b ≠ 0x2B ∧ b ≠ 0x3D := by
  refine ⟨?_, ?_, ?_, ?_, ?_⟩
  · unfold isPlain at h
    simp only [Bool.and_eq_true, decide_eq_true_eq] at h
    exact h.1
  all_goals
    rintro rfl
    revert h
    decide

/-- What stands for a byte: a plus sign, the byte itself, or a percent sign and two digits. -/
theorem encode_encodeByte (b : UInt8) :
    (b = 0x20 ∧ Utf8.encode (encodeByte b) = [0x2B]) ∨
    (isPlain b = true ∧ Utf8.encode (encodeByte b) = [b]) ∨
    Utf8.encode (encodeByte b) = [0x25, hexByte (b.toNat / 16), hexByte (b.toNat % 16)] := by
  have hb : b.toNat < 256 := b.toNat_lt
  by_cases h0 : b = 0x20
  · subst h0
    exact Or.inl ⟨rfl, by decide⟩
  · by_cases hp : isPlain b = true
    · refine Or.inr (Or.inl ⟨hp, ?_⟩)
      rw [encodeByte, if_neg h0, if_pos hp, Utf8.encode, List.flatMap_singleton,
        encodeChar_ofNat_toNat (lt_and_ne_mark_of_isPlain hp).1]
    · refine Or.inr (Or.inr ?_)
      rw [encodeByte, if_neg h0, if_neg hp, percentEncodeByte]
      simp only [Utf8.encode, List.flatMap_cons, List.flatMap_nil,
        encodeChar_upperHexDigit (b.toNat / 16) (by omega),
        encodeChar_upperHexDigit (b.toNat % 16) (by omega)]
      rfl

/-! ## Components -/

/-- A space in the place of each plus sign. -/
def plusToSpace (bytes : List UInt8) : List UInt8 := bytes.map fun b => if b = 0x2B then 0x20 else b

theorem percentDecode_cons_of_ne {a : UInt8} (h : a ≠ 0x25) (rest : List UInt8) :
    percentDecode (a :: rest) = a :: percentDecode rest := by
  match rest with
  | [] => rfl
  | [_] => rfl
  | _ :: _ :: _ => rw [percentDecode, if_neg h]

theorem percentDecode_percent {high low : Nat} (hhigh : high < 16) (hlow : low < 16)
    (rest : List UInt8) :
    percentDecode (0x25 :: hexByte high :: hexByte low :: rest) =
      UInt8.ofNat (16 * high + low) :: percentDecode rest := by
  rw [percentDecode, if_pos rfl, hexDigit?_hexByte high hhigh, hexDigit?_hexByte low hlow]

/-- What stands for a byte is read as that byte. -/
theorem percentDecode_encodeByte (b : UInt8) (rest : List UInt8) :
    percentDecode (plusToSpace (Utf8.encode (encodeByte b)) ++ rest) = b :: percentDecode rest := by
  have hb : b.toNat < 256 := b.toNat_lt
  rcases encode_encodeByte b with ⟨rfl, h⟩ | ⟨hp, h⟩ | h
  · rw [h]
    exact percentDecode_cons_of_ne (by decide) rest
  · obtain ⟨-, hpercent, -, hplus, -⟩ := lt_and_ne_mark_of_isPlain hp
    rw [h, plusToSpace, List.map_singleton, if_neg hplus]
    exact percentDecode_cons_of_ne hpercent rest
  · have hhigh := hexByte_ne_mark (b.toNat / 16) (by omega)
    have hlow := hexByte_ne_mark (b.toNat % 16) (by omega)
    simp only [h, plusToSpace, List.map_cons, List.map_nil, hhigh.2.1, hlow.2.1, if_false,
      List.cons_append, List.nil_append]
    rw [if_neg (by decide), percentDecode_percent (by omega) (by omega),
      show 16 * (b.toNat / 16) + b.toNat % 16 = b.toNat by omega, UInt8.ofNat_toNat]

theorem percentDecode_encodeBytes (bs : List UInt8) :
    percentDecode (plusToSpace (Utf8.encode (bs.flatMap encodeByte))) = bs := by
  induction bs with
  | nil => rfl
  | cons b bs ih =>
      have hsplit : plusToSpace (Utf8.encode ((b :: bs).flatMap encodeByte)) =
          plusToSpace (Utf8.encode (encodeByte b)) ++
            plusToSpace (Utf8.encode (bs.flatMap encodeByte)) := by
        rw [List.flatMap_cons, Utf8.encode, List.flatMap_append, plusToSpace, List.map_append]
        rfl
      rw [hsplit, percentDecode_encodeByte, ih]

theorem decodeComponent_encodeComponent (s : String) :
    decodeComponent (Utf8.encode (encodeComponent s)) = s := by
  calc decodeComponent (Utf8.encode (encodeComponent s))
      = Utf8.decodeLossy (percentDecode
          (plusToSpace (Utf8.encode ((Utf8.ofString s).flatMap encodeByte)))) := rfl
    _ = Utf8.decodeLossy (Utf8.ofString s) := by rw [percentDecode_encodeBytes]
    _ = s := Utf8.decodeLossy_ofString s

/-! ## Pairs -/

/-- No mark that separates pairs, or names from values, stands in a component. -/
theorem ne_mark_of_mem_encodeComponent {s : String} {b : UInt8}
    (h : b ∈ Utf8.encode (encodeComponent s)) : b ≠ 0x26 ∧ b ≠ 0x3D := by
  obtain ⟨c, hc, hbc⟩ := List.mem_flatMap.mp h
  obtain ⟨a, -, hca⟩ := List.mem_flatMap.mp hc
  have hb : b ∈ Utf8.encode (encodeByte a) := List.mem_flatMap.mpr ⟨c, hca, hbc⟩
  have ha : a.toNat < 256 := a.toNat_lt
  -- The marks themselves are not plain, so they are percent-encoded like any other byte.
  rcases encode_encodeByte a with ⟨-, h⟩ | ⟨hp, h⟩ | h
  · rw [h, List.mem_singleton] at hb
    subst hb
    decide
  · rw [h, List.mem_singleton] at hb
    subst hb
    exact ⟨(lt_and_ne_mark_of_isPlain hp).2.2.1, (lt_and_ne_mark_of_isPlain hp).2.2.2.2⟩
  · rw [h] at hb
    simp only [List.mem_cons, List.not_mem_nil, or_false] at hb
    have hhigh := hexByte_ne_mark (a.toNat / 16) (by omega)
    have hlow := hexByte_ne_mark (a.toNat % 16) (by omega)
    rcases hb with rfl | rfl | rfl
    · decide
    · exact ⟨hhigh.1, hhigh.2.2⟩
    · exact ⟨hlow.1, hlow.2.2⟩

theorem encode_encodePair (name value : String) :
    Utf8.encode (encodePair name value) =
      Utf8.encode (encodeComponent name) ++ 0x3D :: Utf8.encode (encodeComponent value) := by
  rw [encodePair, Utf8.encode, List.flatMap_append, List.flatMap_cons]
  rfl

theorem decodePair_encodePair (name value : String) :
    decodePair (Utf8.encode (encodePair name value)) = (name, value) := by
  have hname : ∀ b ∈ Utf8.encode (encodeComponent name), (b != 0x3D) = true := fun b hb => by
    simpa using (ne_mark_of_mem_encodeComponent hb).2
  rw [encode_encodePair, decodePair, List.takeWhile_append_of_pos hname,
    List.dropWhile_append_of_pos hname]
  simp [decodeComponent_encodeComponent]

/-- **An encoded pair reads back.** -/
theorem decode_encodePair (name value : String) :
    decode (Utf8.encode (encodePair name value)) = [(name, value)] := by
  -- No ampersand: there is a single pair, and it is not empty.
  have hmark : (0x26 : UInt8) ∉ Utf8.encode (encodePair name value) := by
    rw [encode_encodePair]
    intro h
    rcases List.mem_append.mp h with h | h
    · exact (ne_mark_of_mem_encodeComponent h).1 rfl
    · rcases List.mem_cons.mp h with h | h
      · exact absurd h (by decide)
      · exact (ne_mark_of_mem_encodeComponent h).1 rfl
  have hne : Utf8.encode (encodePair name value) ≠ [] := by
    rw [encode_encodePair]
    simp
  rw [decode, List.splitOn_eq_singleton hmark, List.filter_cons, if_pos (by simpa using hne),
    List.filter_nil, List.map_singleton, decodePair_encodePair]

theorem lastValue?_singleton (name value : String) :
    lastValue? name [(name, value)] = some value := by
  simp [lastValue?]

/-! ## Texts of several pairs -/

theorem decode_append_ampersand (xs ys : List UInt8) :
    decode (xs ++ 0x26 :: ys) = decode xs ++ decode ys := by
  rw [decode, List.splitOn_append_cons_self, List.filter_append, List.map_append]
  rfl

/-- The last pair with a name is among the later pairs, when these have one. -/
theorem lastValue?_append (name : String) (xs ys : List (String × String)) :
    lastValue? name (xs ++ ys) = (lastValue? name ys).or (lastValue? name xs) := by
  rw [lastValue?, List.filter_append, List.getLast?_append, Option.map_or]
  rfl

theorem lastValue?_eq_none_iff {name : String} {pairs : List (String × String)} :
    lastValue? name pairs = none ↔ ¬ ∃ pair ∈ pairs, pair.1 = name := by
  rw [lastValue?, Option.map_eq_none_iff, List.getLast?_eq_none_iff, List.filter_eq_nil_iff]
  simp only [decide_eq_true_eq, not_exists, not_and]

/-- The name in a piece of a text: what stands before the first equals sign, decoded. -/
def nameOf (piece : List Char) : String :=
  decodeComponent (Utf8.encode (piece.takeWhile (· != '=')))

theorem fst_decodePair_encode (piece : List Char) :
    (decodePair (Utf8.encode piece)).1 = nameOf piece := by
  have hcut : (Utf8.encode piece).takeWhile (· != 0x3D) =
      Utf8.encode (piece.takeWhile (· != '=')) :=
    Utf8.takeWhile_encode (show '='.toNat < 0x80 by decide) piece
  rw [decodePair, hcut]
  rfl

/-- The names of the pairs of a text are those in its pieces between ampersands. An empty piece
is no pair, but has no name either. -/
theorem exists_mem_decode_iff {name : String} (hname : name ≠ "") (cs : List Char) :
    (∃ pair ∈ decode (Utf8.encode cs), pair.1 = name) ↔
      ∃ piece ∈ cs.splitOn '&', nameOf piece = name := by
  have hcut : (Utf8.encode cs).splitOn 0x26 = (cs.splitOn '&').map Utf8.encode :=
    Utf8.splitOn_encode (show '&'.toNat < 0x80 by decide) cs
  rw [decode, hcut]
  constructor
  · rintro ⟨pair, hpair, rfl⟩
    obtain ⟨bytes, hbytes, rfl⟩ := List.mem_map.mp hpair
    obtain ⟨piece, hpiece, rfl⟩ := List.mem_map.mp (List.mem_filter.mp hbytes).1
    exact ⟨piece, hpiece, (fst_decodePair_encode piece).symm⟩
  · rintro ⟨piece, hpiece, rfl⟩
    refine ⟨decodePair (Utf8.encode piece), List.mem_map_of_mem ?_, fst_decodePair_encode piece⟩
    refine List.mem_filter.mpr ⟨List.mem_map_of_mem hpiece, ?_⟩
    rw [decide_eq_true_iff]
    intro hempty
    refine hname ?_
    rw [← fst_decodePair_encode, hempty]
    rfl

end InstanceConsole.FormEncoding

import InstanceConsole.Proofs.Basic
import InstanceConsole.Web.Url.Parser

/-!
# Paths of URLs

The parser cuts a path at its slashes, so that no segment holds one, and gives a rigid path to no
special scheme, `pathParsed_of_parse`. So the text of a path that is a list of segments ends in a
slash exactly when the last segment is empty, and putting a slash there, where there is none, adds
an empty segment, `withTrailingSlash_of_segments`.
-/

set_option autoImplicit false

namespace InstanceConsole

/-! ## Percent encoding -/

theorem upperHexDigit_ne_slash : ∀ n < 16, Numeral.upperHexDigit n ≠ '/' := by decide

theorem Percent.slash_notMem_encode {set : EncodeSet} {cs : List Char} (h : '/' ∉ cs) :
    '/' ∉ (encode set cs).toList := by
  intro hmem
  rw [encode, String.toList_ofList] at hmem
  obtain ⟨c, hc, hslash⟩ := List.mem_flatMap.mp hmem
  split at hslash
  · obtain ⟨b, -, hbyte⟩ := List.mem_flatMap.mp hslash
    have hb : b.toNat < 256 := b.toNat_lt
    have hhigh := upperHexDigit_ne_slash (b.toNat / 16) (by omega)
    have hlow := upperHexDigit_ne_slash (b.toNat % 16) (by omega)
    simp [FormEncoding.percentEncodeByte, hhigh.symm, hlow.symm] at hbyte
  · obtain rfl := List.mem_singleton.mp hslash
    exact h hc

namespace Url

/-! ## Segments -/

/-- A text that may stand between two slashes. -/
def IsSegment (s : String) : Prop := '/' ∉ s.toList

theorem isSegment_empty : IsSegment "" := List.not_mem_nil

theorem isSegment_normalSegment {segment : List Char} (h : '/' ∉ segment) (file : Bool)
    (before : List String) : IsSegment (normalSegment file before segment) := by
  unfold normalSegment
  split
  next letter mark =>
    split
    · intro hmem
      rw [String.toList_ofList] at hmem
      rcases List.mem_cons.mp hmem with hletter | hcolon
      · exact h (hletter ▸ List.mem_cons_self)
      · exact absurd hcolon (by decide)
    · exact Percent.slash_notMem_encode h
  next => exact Percent.slash_notMem_encode h

theorem shorten_subset (file : Bool) (before : List String) : shorten file before ⊆ before := by
  unfold shorten
  split
  · exact List.Subset.refl _
  · split
    · exact List.Subset.refl _
    · exact List.nil_subset _
  · exact List.subset_cons_self _ _

theorem isSegment_of_mem_addSegments {pieces : List (List Char)} {before : List String}
    (file : Bool) (hbefore : ∀ s ∈ before, IsSegment s) (hpieces : ∀ piece ∈ pieces, '/' ∉ piece) :
    ∀ s ∈ addSegments file before pieces, IsSegment s := by
  induction pieces generalizing before with
  | nil => exact hbefore
  | cons piece rest ih =>
      obtain ⟨hpiece, hrest⟩ := List.forall_mem_cons.mp hpieces
      have hshortened : ∀ s ∈ shorten file before, IsSegment s :=
        fun s hs => hbefore s (shorten_subset file before hs)
      have hended : ∀ {list : List String}, (∀ s ∈ list, IsSegment s) →
          ∀ s ∈ "" :: list, IsSegment s :=
        fun hlist => List.forall_mem_cons.mpr ⟨isSegment_empty, hlist⟩
      refine ih ?_ hrest
      split
      · split
        · exact hended hshortened
        · exact hshortened
      · split
        · split
          · exact hended hbefore
          · exact hbefore
        · exact List.forall_mem_cons.mpr ⟨isSegment_normalSegment hpiece file before, hbefore⟩

theorem isSegment_of_mem_segmentsOf {scheme : String} {cs : List Char} :
    ∀ s ∈ segmentsOf scheme cs, IsSegment s := by
  intro s hs
  refine isSegment_of_mem_addSegments _ (by simp) ?_ s (List.mem_reverse.mp hs)
  intro piece hpiece hslash
  have hcut := eq_false_of_mem_splitOnP hpiece '/' hslash
  simp [isSlash] at hcut

theorem isSegment_of_mem_pathSegments {scheme : String} {cs : List Char} :
    ∀ s ∈ pathSegments scheme cs, IsSegment s := by
  unfold pathSegments
  split
  · simp
  · exact isSegment_of_mem_segmentsOf

/-! ## Parsed paths -/

/-- What the path of a parsed URL is like: it is rigid, and the scheme is not special, or it is cut
into segments. -/
def PathParsed (u : Url) : Prop :=
  (isSpecial u.scheme = false ∧ ∃ text, u.path = .rigid text) ∨
    ∃ list, u.path = .segments list ∧ ∀ s ∈ list, IsSegment s

theorem pathParsed_finish {u : Url} (h : u.PathParsed) (tail : Tail) : (u.finish tail).PathParsed :=
  h

section

variable {domains : DomainMapping}

theorem pathParsed_withAuthority {scheme : String} {cs : List Char} {tail : Tail} {u : Url}
    (h : withAuthority domains scheme cs tail = .ok u) : u.PathParsed := by
  unfold withAuthority at h
  dsimp only at h
  have h := eq_ok_of_ite_error (eq_ok_of_ite_error h)
  -- Hosts are read in two ways, and the rest is the same for both.
  split at h
  all_goals
    obtain ⟨host, -, h⟩ := exists_ok_of_bind_eq_ok h
    obtain ⟨port, -, h⟩ := exists_ok_of_bind_eq_ok h
    obtain rfl := Except.ok.inj (eq_ok_of_ite_error h)
    exact pathParsed_finish (.inr ⟨_, rfl, isSegment_of_mem_pathSegments⟩) tail

theorem pathParsed_ofFile {cs : List Char} {tail : Tail} {u : Url}
    (h : ofFile domains cs tail = .ok u) : u.PathParsed := by
  obtain ⟨⟨host, path⟩, -, h⟩ := exists_ok_of_bind_eq_ok h
  obtain rfl := Except.ok.inj h
  refine pathParsed_finish (.inr ⟨_, rfl, ?_⟩) tail
  intro s hs
  split at hs
  · obtain rfl := List.mem_singleton.mp hs
    exact isSegment_empty
  · exact isSegment_of_mem_segmentsOf s ((List.dropWhile_suffix _).subset hs)

theorem pathParsed_withoutAuthority {scheme : String} (h : isSpecial scheme = false)
    (cs : List Char) (tail : Tail) : (withoutAuthority scheme cs tail).PathParsed := by
  unfold withoutAuthority
  split
  · exact pathParsed_finish (.inr ⟨_, rfl, isSegment_of_mem_segmentsOf⟩) tail
  · exact pathParsed_finish (.inl ⟨h, _, rfl⟩) tail

/-- Whatever names are mapped to, the path of a URL is one of the two kinds. -/
theorem pathParsed_of_parse {s : String} {u : Url} (h : parse domains s = .ok u) :
    u.PathParsed := by
  unfold parse at h
  cases hscheme : scheme? (clean s.toList) with
  | none =>
      rw [hscheme] at h
      cases h
  | some parts =>
      obtain ⟨scheme, rest⟩ := parts
      rw [hscheme] at h
      dsimp only at h
      split at h
      · exact pathParsed_ofFile h
      · by_cases hspecial : isSpecial scheme = true
        · rw [if_pos hspecial] at h
          exact pathParsed_withAuthority h
        · rw [if_neg hspecial] at h
          split at h
          · exact pathParsed_withAuthority h
          · obtain rfl := Except.ok.inj h
            exact pathParsed_withoutAuthority (by simpa using hspecial) _ _

end

/-! ## Texts of paths -/

/-- Segments as they stand in a path. -/
def segmentsText (list : List String) : String := String.join (list.map ("/" ++ ·))

theorem segmentsText_append (front back : List String) :
    segmentsText (front ++ back) = segmentsText front ++ segmentsText back := by
  rw [segmentsText, List.map_append, String.join_append]
  rfl

theorem segmentsText_cons (first : String) (rest : List String) :
    segmentsText (first :: rest) = "/" ++ first ++ segmentsText rest := by
  rw [segmentsText, List.map_cons, String.join_cons]
  rfl

/-- The text with a slash at its end. -/
def slashed (s : String) : String := if s.toList.getLast? = some '/' then s else s ++ "/"

/-- A path ends in a slash when its last segment is empty. -/
theorem getLast?_segmentsText {list : List String} (h : ∀ s ∈ list, IsSegment s) :
    (segmentsText list).toList.getLast? = some '/' ↔ list.getLast? = some "" := by
  obtain rfl | ⟨front, last, rfl⟩ := list.eq_nil_or_concat
  · simp [segmentsText]
  · rw [List.concat_eq_append] at h ⊢
    have hlast : IsSegment last := h last (by simp)
    have hchars : (segmentsText (front ++ [last])).toList =
        (segmentsText front).toList ++ '/' :: last.toList := by
      rw [segmentsText_append, segmentsText_cons]
      simp [segmentsText]
    rw [hchars, List.getLast?_append, List.getLast?_concat, List.getLast?_cons]
    cases hend : last.toList.getLast? with
    | none => simpa using hend
    | some c =>
        -- The text ends with a character of its last segment.
        have hc : c ∈ last.toList := List.mem_of_getLast? hend
        have hslash : c ≠ '/' := fun heq => hlast (heq ▸ hc)
        have hempty : last ≠ "" := by
          rintro rfl
          exact List.not_mem_nil hc
        simp [hslash, hempty]

variable {u : Url} {list : List String}

theorem pathText_of_segments (h : u.path = .segments list) : u.pathText = segmentsText list := by
  rw [pathText, h]
  rfl

/-- A slash at the end of a path is an empty segment at its end. -/
theorem withTrailingSlash_of_segments (hpath : u.path = .segments list)
    (h : ∀ s ∈ list, IsSegment s) :
    ∃ front, u.withTrailingSlash = { u with path := .segments (front ++ [""]) } ∧
      segmentsText front ++ "/" = slashed u.pathText := by
  rw [pathText_of_segments hpath, slashed]
  simp only [withTrailingSlash, hpath]
  by_cases hend : list.getLast? = some ""
  · rw [if_pos hend, if_pos ((getLast?_segmentsText h).mpr hend)]
    obtain ⟨front, rfl⟩ := List.getLast?_eq_some_iff.mp hend
    refine ⟨front, ?_, ?_⟩
    · rw [← hpath]
    · rw [segmentsText_append]
      rfl
  · rw [if_neg hend, if_neg (mt (getLast?_segmentsText h).mp hend)]
    exact ⟨list, rfl, rfl⟩

end Url

end InstanceConsole

import InstanceConsole.Proofs.Filter.Acceptance

/-!
# Other parameters in the query string

Of a query string only the last parameter with the name of the filter counts. Whatever stands
between ampersands before it or behind it has no part in the filter or in the error,
`Filter.ofQuery_ignores_others`.
-/

set_option autoImplicit false

namespace InstanceConsole

/-- Some piece of a text between ampersands has the name of the filter's parameter. -/
def NamesFilter (text : String) : Prop :=
  ∃ piece ∈ text.toList.splitOn '&', FormEncoding.nameOf piece = filterParameter

instance (text : String) : Decidable (NamesFilter text) :=
  inferInstanceAs (Decidable (∃ piece ∈ text.toList.splitOn '&', _))

/-! ## The value of the parameter -/

namespace WireFilter

/-- The value of the parameter in a query string without its question mark. -/
def valueIn? (cs : List Char) : Option String :=
  FormEncoding.lastValue? filterParameter (FormEncoding.decode (Utf8.encode cs))

theorem parameter?_eq (search : String) : parameter? search = valueIn? (dropQuestionMark search) :=
  rfl

theorem valueIn?_eq_none_iff {text : String} :
    valueIn? text.toList = none ↔ ¬ NamesFilter text := by
  rw [valueIn?, FormEncoding.lastValue?_eq_none_iff,
    FormEncoding.exists_mem_decode_iff (by decide)]
  rfl

/-- The part behind an ampersand counts, unless it has no value for the parameter. -/
theorem valueIn?_append_ampersand (xs ys : List Char) :
    valueIn? (xs ++ '&' :: ys) = (valueIn? ys).or (valueIn? xs) := by
  have hbytes : Utf8.encode (xs ++ '&' :: ys) = Utf8.encode xs ++ 0x26 :: Utf8.encode ys := by
    rw [Utf8.encode, List.flatMap_append, List.flatMap_cons]
    rfl
  rw [valueIn?, hbytes, FormEncoding.decode_append_ampersand, FormEncoding.lastValue?_append]
  rfl

/-- What stands around a text that has the parameter does not change its value, when nothing
behind the text has it. -/
theorem valueIn?_surrounded {q b : String} (hq : NamesFilter q) (hb : ¬ NamesFilter b)
    (before : List Char) :
    valueIn? (before ++ '&' :: (q ++ "&" ++ b).toList) = valueIn? q.toList := by
  have hfound : valueIn? q.toList ≠ none := mt valueIn?_eq_none_iff.mp (not_not.mpr hq)
  obtain ⟨value, hvalue⟩ := Option.ne_none_iff_exists'.mp hfound
  have hsplit : (q ++ "&" ++ b).toList = q.toList ++ '&' :: b.toList := by simp
  rw [valueIn?_append_ampersand, hsplit, valueIn?_append_ampersand, valueIn?_eq_none_iff.mpr hb,
    Option.none_or, hvalue, Option.some_or]

/-- The form in a query string is that in the value of its parameter. -/
theorem ofQuery_congr {s t : String} (h : parameter? s = parameter? t) :
    ofQuery s = ofQuery t := by
  unfold parameter? at h
  unfold ofQuery
  dsimp only
  rw [h]

end WireFilter

/-! ## The filter -/

theorem dropQuestionMark_question (text : String) :
    dropQuestionMark ("?" ++ text) = text.toList := by
  have hchars : ("?" ++ text).toList = '?' :: text.toList := by simp
  rw [dropQuestionMark, hchars]
  rfl

/-- Without a question mark in front, one may still stand at the start of the text before an
ampersand, and is dropped there. -/
theorem exists_dropQuestionMark_append (a text : String) :
    ∃ before, dropQuestionMark (a ++ "&" ++ text) = before ++ '&' :: text.toList := by
  have hchars : (a ++ "&" ++ text).toList = a.toList ++ '&' :: text.toList := by simp
  rw [dropQuestionMark, hchars]
  split
  next rest hrest =>
    cases ha : a.toList with
    | nil =>
        rw [ha] at hrest
        cases hrest
    | cons c before =>
        rw [ha] at hrest
        obtain ⟨-, rfl⟩ := List.cons.inj hrest
        exact ⟨before, rfl⟩
  next => exact ⟨a.toList, rfl⟩

namespace Filter

theorem ofQuery_congr {s t : String} (h : WireFilter.parameter? s = WireFilter.parameter? t) :
    ofQuery s = ofQuery t := by
  rw [ofQuery, WireFilter.ofQuery_congr h]
  rfl

/-- **Other parameters have no part in the filter.** Let some piece of `q` between ampersands have
the name of the parameter, and no piece of `b`. Then whatever `a` is, `q` alone and `q` between `a`
and `b` give the same filter or the same error, with a question mark in front or without. -/
theorem ofQuery_ignores_others (a q b : String) (hq : NamesFilter q) (hb : ¬ NamesFilter b) :
    ofQuery ("?" ++ a ++ "&" ++ q ++ "&" ++ b) = ofQuery ("?" ++ q) ∧
      ofQuery (a ++ "&" ++ q ++ "&" ++ b) = ofQuery ("?" ++ q) := by
  have hjoin : a ++ "&" ++ q ++ "&" ++ b = a ++ "&" ++ (q ++ "&" ++ b) := by
    simp only [String.append_assoc]
  have hmarked : "?" ++ a ++ "&" ++ q ++ "&" ++ b = "?" ++ (a ++ "&" ++ (q ++ "&" ++ b)) := by
    simp only [String.append_assoc]
  have halone : WireFilter.parameter? ("?" ++ q) = WireFilter.valueIn? q.toList := by
    rw [WireFilter.parameter?_eq, dropQuestionMark_question]
  constructor
  · refine ofQuery_congr ?_
    have hchars : (a ++ "&" ++ (q ++ "&" ++ b)).toList =
        a.toList ++ '&' :: (q ++ "&" ++ b).toList := by simp
    rw [halone, hmarked, WireFilter.parameter?_eq, dropQuestionMark_question, hchars,
      WireFilter.valueIn?_surrounded hq hb]
  · refine ofQuery_congr ?_
    obtain ⟨before, hbefore⟩ := exists_dropQuestionMark_append a (q ++ "&" ++ b)
    rw [halone, hjoin, WireFilter.parameter?_eq, hbefore, WireFilter.valueIn?_surrounded hq hb]

/-- An earlier filter, a second question mark, escapes without digits, bytes that are no text and
names that are no more than alike are all passed over. -/
theorem ofQuery_ignores_others_noise :
    let a := "?filter=%7B%22active%22:true%7D&%zz=%ff%C3&&é"
    let q := "tab=list&f%69lter=%7B%22canceled%22:true%7D"
    let b := "=filter&Filter=1&filter%00=1&%2"
    NamesFilter q ∧ ¬ NamesFilter b ∧
      ofQuery ("?" ++ a ++ "&" ++ q ++ "&" ++ b) = ofQuery ("?" ++ q) ∧
      ofQuery (a ++ "&" ++ q ++ "&" ++ b) = ofQuery ("?" ++ q) ∧
      ofQuery ("?" ++ q) = .ok { canceled := some true } := by
  -- The strings stand in for their names, so that everything can be computed.
  show NamesFilter _ ∧ ¬ NamesFilter _ ∧ _
  have hq : NamesFilter "tab=list&f%69lter=%7B%22canceled%22:true%7D" := by decide
  have hb : ¬ NamesFilter "=filter&Filter=1&filter%00=1&%2" := by decide
  obtain ⟨hmarked, hplain⟩ :=
    ofQuery_ignores_others "?filter=%7B%22active%22:true%7D&%zz=%ff%C3&&é" _ _ hq hb
  exact ⟨hq, hb, hmarked, hplain, rfl⟩

end Filter

end InstanceConsole

import InstanceConsole.Filter.Query
import InstanceConsole.Proofs.Filter.WireForm
import InstanceConsole.Proofs.Web.FormEncoding

/-!
# Query strings read back

A filter that is written to a query string is read as the canonical filter, or refused when that
has no field set. So a filter that came out of a query string is never changed by another trip.
-/

set_option autoImplicit false

namespace InstanceConsole

/-- A query string carries the whole wire form. -/
theorem WireFilter.ofQuery_toQuery (f : Filter) : ofQuery f.toQuery = .ok (ofFilter f) := by
  -- The query string is one pair behind a question mark.
  have hchars : dropQuestionMark f.toQuery =
      FormEncoding.encodePair filterParameter (ofFilter f).toJson.compact := by
    unfold dropQuestionMark Filter.toQuery
    rw [String.toList_ofList]
    rfl
  unfold ofQuery
  simp only [hchars, FormEncoding.decode_encodePair, FormEncoding.lastValue?_singleton,
    Json.read_compact, Option.bind_some, ofJson?_toJson]

namespace Filter

/-! ## Writing, then reading -/

theorem ofQuery_toQuery (f : Filter) :
    ofQuery f.toQuery = if f.canonical.isEmpty then .error .empty else .ok f.canonical := by
  unfold ofQuery
  rw [WireFilter.ofQuery_toQuery]
  show ((WireFilter.ofFilter f).toFilter >>= _) = _
  rw [WireFilter.toFilter_ofFilter]
  rfl

/-! ## Filters that came out of a query string -/

/-- A query string yields canonical filters only, and none without a field set. -/
theorem canonical_of_ofQuery {search : String} {f : Filter} (h : ofQuery search = .ok f) :
    f.canonical = f ∧ f.isEmpty = false := by
  obtain ⟨wire, -, h⟩ := exists_ok_of_bind_eq_ok h
  obtain ⟨read, hread, h⟩ := exists_ok_of_bind_eq_ok h
  -- A filter without a field set is refused, whatever the text was.
  by_cases hempty : read.isEmpty = true
  · simp [hempty] at h
  · rw [if_neg hempty] at h
    obtain rfl := Except.ok.inj h
    exact ⟨WireFilter.canonical_of_toFilter hread, by simpa using hempty⟩

/-- A canonical filter with a field set survives the trip. -/
theorem ofQuery_toQuery_of_canonical {f : Filter} (hcanonical : f.canonical = f)
    (hfield : f.isEmpty = false) : ofQuery f.toQuery = .ok f := by
  rw [ofQuery_toQuery, hcanonical, hfield]
  rfl

theorem ofQuery_toQuery_default : ofQuery default.toQuery = .ok default :=
  ofQuery_toQuery_of_canonical rfl rfl

/-- **What a query string carries.** A filter is read back as its canonical filter, unless that
has no field set. A filter that was read from any query string is read back as it is. -/
theorem query_roundTrip :
    (∀ f : Filter, ofQuery f.toQuery =
      if f.canonical.isEmpty then .error .empty else .ok f.canonical) ∧
    ∀ (search : String) (f : Filter), ofQuery search = .ok f → ofQuery f.toQuery = .ok f := by
  constructor
  · exact ofQuery_toQuery
  · intro search f h
    obtain ⟨hcanonical, hfield⟩ := canonical_of_ofQuery h
    exact ofQuery_toQuery_of_canonical hcanonical hfield

end Filter

end InstanceConsole

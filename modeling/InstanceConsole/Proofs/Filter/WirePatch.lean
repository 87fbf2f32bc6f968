import InstanceConsole.Proofs.Filter.WireForm

/-!
# The wire form as a change

A wire form stands for a filter, and it also stands for a change of the current one. The filter is
decoded first and normalized as a whole, while the change clears a blank field on its own, and yet
the two agree: both fail with the same error, and merging the change lays the fields that the form
carries over the current filter, `toPatch_agrees`.
-/

set_option autoImplicit false

namespace InstanceConsole.WireFilter

/-! ## Single fields -/

section Fields

variable {α : Type} (raw : Option String) (value current : Option α)

/-- A field under a form: its value there when the form carries it, and else the current one. -/
def carried : Option α := if raw.isSome then value else current

/-- The change of a field that a form carries with a value. -/
def carriedChange : Change α := if raw.isSome then .replace value else .keep

theorem apply_carriedChange :
    (carriedChange raw value).apply current = carried raw value current := by
  cases raw with
  | none => rfl
  | some s => cases value <;> rfl

theorem bind_carried {β : Type} (f : α → Option β) :
    (carried raw value current).bind f = carried raw (value.bind f) (current.bind f) := by
  cases raw <;> rfl

theorem filter_carried (p : α → Bool) :
    (carried raw value current).filter p = carried raw (value.filter p) (current.filter p) := by
  cases raw <;> rfl

variable {raw value}

/-- A field that is not carried has no value, so nothing is laid over nothing. -/
theorem carried_none (h : raw = none → value = none) : carried raw value none = value := by
  cases raw with
  | none => exact (h rfl).symm
  | some s => rfl

end Fields

theorem textChange_eq (raw : Option String) :
    textChange raw = carriedChange raw (raw.bind Filter.unlessBlank) := by
  cases raw <;> rfl

theorem idsChange_eq (raw : Option String) :
    idsChange raw = carriedChange raw ((raw.map splitIds).filter (· ≠ [])) := by
  cases raw <;> rfl

section Decoding

variable {α : Type} {decode : String → Except FilterError (Option α)} {raw : Option String}

/-- Both readings decode a field once. -/
theorem decodeChange_eq :
    decodeChange decode raw = (decodeField decode raw).map (carriedChange raw) := by
  cases raw <;> rfl

theorem carried_none_of_decodeField {value : Option α} (h : decodeField decode raw = .ok value) :
    carried raw value none = value := by
  refine carried_none ?_
  rintro rfl
  exact (Except.ok.inj h).symm

end Decoding

/-! ## The whole form -/

/-- The fields that the form carries, with their values in `filter`, laid over `current`. A flag is
carried with its value. -/
def overlay (w : WireFilter) (filter current : Filter) : Filter where
  active := w.active <|> current.active
  incidents := w.incidents <|> current.incidents
  completed := w.completed <|> current.completed
  canceled := w.canceled <|> current.canceled
  ids := carried w.ids filter.ids current.normalized.ids
  errorMessage := carried w.errorMessage filter.errorMessage current.normalized.errorMessage
  startDate := carried w.startDate filter.startDate current.normalized.startDate
  endDate := carried w.endDate filter.endDate current.normalized.endDate
  activityId := carried w.activityId filter.activityId current.normalized.activityId
  workflow := carried w.workflow filter.workflow current.normalized.workflow
  version := carried w.version filter.version current.normalized.version
  variableFilter :=
    carried w.variableFilter filter.variableFilter current.normalized.variableFilter

/-- Merging the change is laying the filter over the current one, also in what fails. -/
theorem map_merge_toPatch (w : WireFilter) (current : Filter) :
    w.toPatch.map current.merge = w.toFilter.map (w.overlay · current) := by
  simp only [toPatch, toFilter, decodeChange_eq]
  -- Each reading stops at the first field that does not decode.
  cases decodeField (decodeDate .startDate) w.startDate with
  | error e => rfl
  | ok startDate =>
  cases decodeField (decodeDate .endDate) w.endDate with
  | error e => rfl
  | ok endDate =>
  cases decodeField decodeVersion w.version with
  | error e => rfl
  | ok version =>
  cases decodeField decodeVariable w.variableFilter with
  | error e => rfl
  | ok variableFilter =>
  refine congrArg Except.ok ?_
  simp only [Filter.merge, overlay, Filter.normalized, textChange_eq, idsChange_eq,
    apply_carriedChange, bind_carried, filter_carried, Filter.bind_unlessBlank_bind_unlessBlank,
    Filter.filter_filter_self]

theorem overlay_empty_of_toFilter {w : WireFilter} {filter : Filter}
    (h : w.toFilter = .ok filter) : w.overlay filter {} = filter := by
  obtain ⟨startDate, hstart, h⟩ := exists_ok_of_bind_eq_ok h
  obtain ⟨endDate, hend, h⟩ := exists_ok_of_bind_eq_ok h
  obtain ⟨version, hversion, h⟩ := exists_ok_of_bind_eq_ok h
  obtain ⟨variableFilter, hvariable, h⟩ := exists_ok_of_bind_eq_ok h
  obtain rfl := Except.ok.inj h
  have htext : ∀ raw : Option String,
      carried raw (raw.bind Filter.unlessBlank) none = raw.bind Filter.unlessBlank :=
    fun _ => carried_none fun hraw => by rw [hraw, Option.bind_none]
  have hids : carried w.ids ((w.ids.map splitIds).filter (· ≠ [])) none =
      (w.ids.map splitIds).filter (· ≠ []) :=
    carried_none fun hraw => by rw [hraw, Option.map_none, Option.filter_none]
  have hvalue : carried w.variableFilter (variableFilter.filter fun v => !Text.isBlank v.name)
      none = variableFilter.filter fun v => !Text.isBlank v.name := by
    have hfilter := filter_carried w.variableFilter variableFilter none
      fun v => !Text.isBlank v.name
    rw [carried_none_of_decodeField hvariable, Option.filter_none] at hfilter
    exact hfilter.symm
  simp only [overlay, Filter.normalized, Option.bind_none, Option.filter_none, htext, hids,
    hvalue, carried_none_of_decodeField hstart, carried_none_of_decodeField hend,
    carried_none_of_decodeField hversion, Option.orElse_eq_orElse, Option.orElse_eq_or,
    Option.or_none]

/-- **The two readings of a wire form agree.** The change and the filter fail alike. Otherwise
merging the change gives each field that the form carries its value in the filter, and leaves the
others at their normal value; a flag that the form carries is set. Merged into the empty filter,
the change gives the filter itself. -/
theorem toPatch_agrees (w : WireFilter) :
    (∀ error, w.toPatch = .error error ↔ w.toFilter = .error error) ∧
    ∀ patch filter, w.toPatch = .ok patch → w.toFilter = .ok filter →
      (∀ current : Filter, current.merge patch = w.overlay filter current) ∧
      ({} : Filter).merge patch = filter := by
  refine ⟨error_iff_of_map_eq (map_merge_toPatch w {}), ?_⟩
  intro patch filter hpatch hfilter
  have hmerge : ∀ current : Filter, current.merge patch = w.overlay filter current := by
    intro current
    have h := map_merge_toPatch w current
    rw [hpatch, hfilter] at h
    exact Except.ok.inj h
  exact ⟨hmerge, (hmerge {}).trans (overlay_empty_of_toFilter hfilter)⟩

end InstanceConsole.WireFilter

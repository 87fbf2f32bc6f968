import InstanceConsole.Proofs.Calendar.DateText
import InstanceConsole.Proofs.Filter.Canonical
import InstanceConsole.Proofs.Json.ReadBack
import InstanceConsole.Proofs.Json.Record

/-!
# The wire form read back

The wire form of a filter stands for the same filter again, once blank fields are unset and every
id is cut where an id list is cut, `toFilter_ofFilter`. Its document stands for the same form,
`ofJson?_toJson`.
-/

set_option autoImplicit false

namespace InstanceConsole

/-! ## Documents -/

theorem VariableFilter.ofJson?_toJson (v : VariableFilter) : ofJson? v.toJson = some v := by
  have hsub : ([("name", Json.text v.name), ("value", Json.text v.value)].map (·.1)).Sublist
      ["name", "value"] := List.Sublist.refl _
  have hopen := Json.record?_record hsub (by decide) false
  rw [ofJson?, toJson, Json.openRecord?, hopen]
  rfl

namespace WireFilter

theorem names_members_sublist (w : WireFilter) :
    (w.members.map (·.1)).Sublist Filter.fieldNames := by
  simp only [members, List.append_assoc]
  -- Every member has the next name, or is left out.
  iterate 11 apply Json.optionalMember_append_sublist
  exact Json.map_optionalMember ..

theorem ofJson?_toJson (w : WireFilter) : ofJson? w.toJson = some w := by
  have hopen := Json.record?_record w.names_members_sublist (by decide) true
  have hflag : ∀ (fields : Json.Fields) (name : String) (o : Option Bool),
      fields name = o.map .bool → fields.optional name Json.bool? = some o :=
    fun _ _ _ h => Json.Fields.optional_eq h (fun _ => rfl) (by simp)
  have htext : ∀ (fields : Json.Fields) (name : String) (o : Option String),
      fields name = o.map .text → fields.optional name Json.text? = some o :=
    fun _ _ _ h => Json.Fields.optional_eq h (fun _ => rfl) (by simp [Json.text])
  rw [ofJson?, toJson, Json.closedRecord?, hopen, Option.bind_eq_bind, Option.bind_some,
    hflag _ "active" w.active, hflag _ "incidents" w.incidents, hflag _ "completed" w.completed,
    hflag _ "canceled" w.canceled, htext _ "ids" w.ids, htext _ "errorMessage" w.errorMessage,
    htext _ "startDate" w.startDate, htext _ "endDate" w.endDate,
    htext _ "activityId" w.activityId, htext _ "workflow" w.workflow,
    htext _ "version" w.version, htext _ "variable" w.variableFilter]
  · rfl
  all_goals simp [members, List.lookup_append, Json.lookup_optionalMember]

/-! ## Single fields -/

theorem decodeDate_text (field : DateField) (d : Date) :
    decodeDate field d.text = .ok (some d) := by
  have hblank : Text.isBlank d.text = false :=
    Text.isBlank_eq_false (Date.hyphen_mem_text d) (by decide)
  have htrim : Text.trim d.text = d.text := Text.trim_eq_self fun _ => Date.isBlankChar_of_mem_text
  rw [decodeDate, hblank, htrim, Date.ofTightText?_text]
  rfl

theorem isBlankChar_of_mem_digits {n : Nat} {c : Char} (h : c ∈ Numeral.digits n) :
    Text.isBlankChar c = false :=
  Text.isBlankChar_of_isDigit (Numeral.isDigit_of_mem_digits h)

theorem ofText?_number (n : UInt32) :
    WorkflowVersion.ofText? (Numeral.text n.toNat) = some (.number n) := by
  have hdigit := fun c => Numeral.isDigit_of_mem_digits (n := n.toNat) (c := c)
  have hall : Numeral.text n.toNat ≠ "all" := by
    intro h
    have hmem : 'a' ∈ Numeral.digits n.toNat := by
      rw [← String.toList_ofList (l := Numeral.digits n.toNat), ← Numeral.text, h]
      decide
    exact absurd (hdigit 'a' hmem) (by decide)
  have hread : Numeral.unsigned? UInt32.size (Numeral.digits n.toNat) = some n.toNat := by
    have hlt : n.toNat < UInt32.size := n.toNat_lt
    unfold Numeral.unsigned?
    split
    · -- A plus sign may stand in front of a number, but none is written.
      next h => exact absurd (hdigit '+' (by simp [h])) (by decide)
    · show (Numeral.value? (Numeral.digits n.toNat)).filter _ = _
      rw [Numeral.value?_digits]
      simp [Option.filter, hlt]
  rw [WorkflowVersion.ofText?, if_neg hall, Numeral.text, String.toList_ofList, hread,
    Option.map_some, UInt32.ofNat_toNat]

theorem decodeVersion_text (v : WorkflowVersion) : decodeVersion v.text = .ok (some v) := by
  cases v with
  | all => rfl
  | number n =>
      have hchars : (Numeral.text n.toNat).toList = Numeral.digits n.toNat := String.toList_ofList
      have hvisible : ∀ c ∈ (Numeral.text n.toNat).toList, Text.isBlankChar c = false :=
        fun c hc => isBlankChar_of_mem_digits (hchars ▸ hc)
      have hblank : Text.isBlank (Numeral.text n.toNat) = false := by
        obtain ⟨c, cs, hcs⟩ := List.exists_cons_of_ne_nil (Numeral.digits_ne_nil n.toNat)
        have hc : c ∈ (Numeral.text n.toNat).toList := by
          rw [hchars, hcs]
          simp
        exact Text.isBlank_eq_false hc (hvisible c hc)
      rw [WorkflowVersion.text, decodeVersion, hblank, Text.trim_eq_self hvisible,
        ofText?_number]
      rfl

theorem decodeVariable_compact (v : VariableFilter) :
    decodeVariable v.toJson.compact = .ok (some v) := by
  have hbrace : '\x7b' ∈ v.toJson.compact.toList := by
    simp [Json.compact, VariableFilter.toJson, Json.record, Json.compactChars]
  rw [decodeVariable, Text.isBlank_eq_false hbrace (by decide), Json.read_compact,
    Option.bind_some, VariableFilter.ofJson?_toJson]
  rfl

theorem decodeField_map {α : Type} {decode : String → Except FilterError (Option α)}
    {write : α → String} (h : ∀ a, decode (write a) = .ok (some a)) (o : Option α) :
    decodeField decode (o.map write) = .ok o := by
  cases o with
  | none => rfl
  | some a => exact h a

/-! ## The whole form -/

/-- **The wire form of a filter stands for the canonical filter.** -/
theorem toFilter_ofFilter (f : Filter) : (ofFilter f).toFilter = .ok f.canonical := by
  have hids : (f.normalized.ids.map (String.intercalate ",")).map splitIds =
      f.normalized.ids.map fun ids => ids.flatMap splitIds := by
    rw [Option.map_map]
    exact congrArg (Option.map · f.normalized.ids) (funext splitIds_intercalate)
  simp only [ofFilter, toFilter, decodeField_map (decodeDate_text _),
    decodeField_map decodeVersion_text, decodeField_map decodeVariable_compact, hids]
  exact congrArg Except.ok (Filter.normalized_with_ids f _)

/-- What a wire form stands for is canonical. -/
theorem canonical_of_toFilter {w : WireFilter} {f : Filter} (h : w.toFilter = .ok f) :
    f.canonical = f := by
  obtain ⟨startDate, -, h⟩ := exists_ok_of_bind_eq_ok h
  obtain ⟨endDate, -, h⟩ := exists_ok_of_bind_eq_ok h
  obtain ⟨version, -, h⟩ := exists_ok_of_bind_eq_ok h
  obtain ⟨variableFilter, -, h⟩ := exists_ok_of_bind_eq_ok h
  obtain rfl := Except.ok.inj h
  -- Decoding ends with a normal filter, so only the ids are left to look at.
  refine Filter.canonical_eq_self (Filter.normalized_normalized _) fun ids hids id hid => ?_
  -- They come from one text that was cut.
  obtain ⟨text, -, rfl⟩ := Option.map_eq_some_iff.mp (Option.eq_some_of_filter_eq_some hids)
  exact splitIds_of_mem_splitIds hid

/-- The ids that a wire form sets are cut already. -/
theorem splitIds_of_toPatch {w : WireFilter} {patch : FilterPatch} (h : w.toPatch = .ok patch)
    {ids : List String} (hids : patch.ids = .set ids) : ∀ id ∈ ids, splitIds id = [id] := by
  obtain ⟨startDate, -, h⟩ := exists_ok_of_bind_eq_ok h
  obtain ⟨endDate, -, h⟩ := exists_ok_of_bind_eq_ok h
  obtain ⟨version, -, h⟩ := exists_ok_of_bind_eq_ok h
  obtain ⟨variableFilter, -, h⟩ := exists_ok_of_bind_eq_ok h
  obtain rfl := Except.ok.inj h
  have hchange : idsChange w.ids = .set ids := hids
  intro id hid
  cases htext : w.ids with
  | none =>
      rw [htext] at hchange
      cases hchange
  | some text =>
      rw [htext, idsChange] at hchange
      cases hcut : (some (splitIds text)).filter (· ≠ []) with
      | none =>
          rw [hcut] at hchange
          cases hchange
      | some cut =>
          rw [hcut] at hchange
          obtain rfl : cut = ids := by cases hchange; rfl
          obtain rfl := Option.some.inj (Option.eq_some_of_filter_eq_some hcut)
          exact splitIds_of_mem_splitIds hid

end WireFilter

/-- A canonical filter is canonical again after a merge with what a wire form stands for. -/
theorem Filter.canonical_merge_of_toPatch {f : Filter} (hf : f.canonical = f) {w : WireFilter}
    {patch : FilterPatch} (h : w.toPatch = .ok patch) :
    (f.merge patch).canonical = f.merge patch := by
  refine canonical_eq_self (normalized_normalized _) fun ids hids => ?_
  have happlied : patch.ids.apply f.ids = some ids := Option.eq_some_of_filter_eq_some hids
  cases hchange : patch.ids with
  | keep =>
      rw [hchange] at happlied
      have hkept : ids ∈ f.canonical.ids := by
        rw [hf]
        exact happlied
      exact splitIds_of_mem_canonical hkept
  | clear =>
      rw [hchange] at happlied
      cases happlied
  | set value =>
      rw [hchange] at happlied
      obtain rfl := Option.some.inj happlied
      exact WireFilter.splitIds_of_toPatch h hchange

end InstanceConsole

import InstanceConsole.Proofs.Filter.QueryRoundTrip

/-!
# Query strings that are accepted

Which query strings carry a filter, said without the steps of the decoder: what the document in
the parameter may be, what each of its fields may hold, and when a field counts as set. A document
is an object with the names of the fields, or, as for any record, an array of the fields in their
order.
-/

set_option autoImplicit false

namespace InstanceConsole

theorem Json.bind_bool?_eq_some_iff {o : Option Json} {b : Bool} :
    o.bind bool? = some b ↔ o = some (.bool b) := by
  rw [Option.bind_eq_some_iff]
  constructor
  · rintro ⟨j, rfl, hj⟩
    cases j <;> simp [bool?] at hj ⊢
    exact hj
  · rintro rfl
    exact ⟨_, rfl, rfl⟩

theorem Json.bind_text?_eq_some_iff {o : Option Json} {s : String} :
    o.bind text? = some s ↔ o = some (.text s) := by
  rw [Option.bind_eq_some_iff]
  constructor
  · rintro ⟨j, rfl, hj⟩
    cases j <;> simp [text?, text] at hj ⊢
    exact hj
  · rintro rfl
    exact ⟨_, rfl, rfl⟩

theorem WorkflowVersion.exists_ofText?_eq_some_iff {s : String} :
    (∃ version, ofText? s = some version) ↔
      s = "all" ∨ ∃ n, Numeral.unsigned? UInt32.size s.toList = some n := by
  unfold ofText?
  by_cases hall : s = "all"
  · simp [hall]
  · cases Numeral.unsigned? UInt32.size s.toList with
    | none => simp [hall]
    | some n => simp [hall]

namespace WireFilter

/-! ## The accepted documents -/

def flagNames : List String := ["active", "incidents", "completed", "canceled"]

def textNames : List String :=
  ["ids", "errorMessage", "startDate", "endDate", "activityId", "workflow", "version", "variable"]

/-- Flags are booleans or `null`, all other fields are texts or `null`. -/
structure Typed (fields : Json.Fields) : Prop where
  flags : ∀ name ∈ flagNames, ∀ j ∈ fields name, j = .null ∨ ∃ b, j = .bool b
  texts : ∀ name ∈ textNames, ∀ j ∈ fields name, j = .null ∨ ∃ s, j = .text s

/-- Dates, the version and the variable are blank, or a text can be read as what they are. -/
structure Readable (fields : Json.Fields) : Prop where
  dates : ∀ name ∈ ["startDate", "endDate"], ∀ s, fields name = some (.text s) →
    Text.isBlank s = true ∨ ∃ date, Date.ofTightText? (Text.trim s) = some date
  version : ∀ s, fields "version" = some (.text s) →
    Text.isBlank s = true ∨ Text.trim s = "all" ∨
      ∃ n, Numeral.unsigned? UInt32.size (Text.trim s).toList = some n
  variableFilter : ∀ s, fields "variable" = some (.text s) →
    Text.isBlank s = true ∨ ∃ v, (Json.read s).bind VariableFilter.ofJson? = some v

/-- Some field holds something: a flag, an id, a text that is not blank, or a variable whose name
is not blank. -/
def SetsField (fields : Json.Fields) : Prop :=
  (∃ name ∈ flagNames, ∃ b, fields name = some (.bool b)) ∨
  (∃ s, fields "ids" = some (.text s) ∧ splitIds s ≠ []) ∨
  (∃ name ∈ ["errorMessage", "startDate", "endDate", "activityId", "workflow", "version"],
    ∃ s, fields name = some (.text s) ∧ Text.isBlank s = false) ∨
  ∃ s v, fields "variable" = some (.text s) ∧ Text.isBlank s = false ∧
    (Json.read s).bind VariableFilter.ofJson? = some v ∧ Text.isBlank v.name = false

structure Accepted (fields : Json.Fields) : Prop where
  typed : Typed fields
  readable : Readable fields
  setsField : SetsField fields

/-- The documents that are accepted as a filter. -/
inductive AcceptedDocument : Json → Prop
  /-- An object: every name is that of a field, and none stands twice. -/
  | object (members : List (String × Json)) (known : ∀ m ∈ members, m.1 ∈ Filter.fieldNames)
      (once : (members.map (·.1)).Nodup)
      (accepted : Accepted fun name => members.lookup name) : AcceptedDocument (.record members)
  /-- An array: the values of the first fields. -/
  | array (items : List Json) (length_le : items.length ≤ Filter.fieldNames.length)
      (accepted : Accepted fun name => (Filter.fieldNames.zip items).lookup name) :
      AcceptedDocument (.arr items)

/-- The text in the parameter of the filter. -/
def parameter? (search : String) : Option String :=
  FormEncoding.lastValue? filterParameter
    (FormEncoding.decode (Utf8.encode (dropQuestionMark search)))

/-- The query strings that are accepted: the last of the parameters for the filter is the text of
an accepted document. -/
def AcceptedQuery (search : String) : Prop :=
  ∃ value j, parameter? search = some value ∧ Json.read value = some j ∧ AcceptedDocument j

/-! ## Documents of the wire form -/

/-- The form with the values of fields. -/
def ofFields (fields : Json.Fields) : WireFilter where
  active := (fields "active").bind Json.bool?
  incidents := (fields "incidents").bind Json.bool?
  completed := (fields "completed").bind Json.bool?
  canceled := (fields "canceled").bind Json.bool?
  ids := (fields "ids").bind Json.text?
  errorMessage := (fields "errorMessage").bind Json.text?
  startDate := (fields "startDate").bind Json.text?
  endDate := (fields "endDate").bind Json.text?
  activityId := (fields "activityId").bind Json.text?
  workflow := (fields "workflow").bind Json.text?
  version := (fields "version").bind Json.text?
  variableFilter := (fields "variable").bind Json.text?

theorem optional_bool_eq_some_iff {fields : Json.Fields} {name : String} {o : Option Bool} :
    fields.optional name Json.bool? = some o ↔
      (∀ j ∈ fields name, j = .null ∨ ∃ b, j = .bool b) ∧ (fields name).bind Json.bool? = o := by
  rw [Json.Fields.optional]
  cases fields name with
  | none => simp
  | some j => cases j <;> simp [Json.nullable, Json.bool?]

theorem optional_text_eq_some_iff {fields : Json.Fields} {name : String} {o : Option String} :
    fields.optional name Json.text? = some o ↔
      (∀ j ∈ fields name, j = .null ∨ ∃ s, j = .text s) ∧ (fields name).bind Json.text? = o := by
  rw [Json.Fields.optional]
  cases fields name with
  | none => simp
  | some j =>
      cases j with
      | str s => cases s <;> simp [Json.nullable, Json.text?, Json.text]
      | _ => simp [Json.nullable, Json.text?, Json.text]

theorem ofJson?_eq_some_iff {j : Json} {w : WireFilter} :
    ofJson? j = some w ↔
      ∃ fields, Json.closedRecord? Filter.fieldNames j = some fields ∧ Typed fields ∧
        ofFields fields = w := by
  constructor
  · intro h
    obtain ⟨fields, hopen, h⟩ := Option.bind_eq_some_iff.mp h
    obtain ⟨active, hactive, h⟩ := Option.bind_eq_some_iff.mp h
    obtain ⟨incidents, hincidents, h⟩ := Option.bind_eq_some_iff.mp h
    obtain ⟨completed, hcompleted, h⟩ := Option.bind_eq_some_iff.mp h
    obtain ⟨canceled, hcanceled, h⟩ := Option.bind_eq_some_iff.mp h
    obtain ⟨ids, hids, h⟩ := Option.bind_eq_some_iff.mp h
    obtain ⟨errorMessage, herrorMessage, h⟩ := Option.bind_eq_some_iff.mp h
    obtain ⟨startDate, hstartDate, h⟩ := Option.bind_eq_some_iff.mp h
    obtain ⟨endDate, hendDate, h⟩ := Option.bind_eq_some_iff.mp h
    obtain ⟨activityId, hactivityId, h⟩ := Option.bind_eq_some_iff.mp h
    obtain ⟨workflow, hworkflow, h⟩ := Option.bind_eq_some_iff.mp h
    obtain ⟨version, hversion, h⟩ := Option.bind_eq_some_iff.mp h
    obtain ⟨variableFilter, hvariable, h⟩ := Option.bind_eq_some_iff.mp h
    obtain rfl := Option.some.inj h
    rw [optional_bool_eq_some_iff] at hactive hincidents hcompleted hcanceled
    rw [optional_text_eq_some_iff] at hids herrorMessage hstartDate hendDate
    rw [optional_text_eq_some_iff] at hactivityId hworkflow hversion hvariable
    refine ⟨fields, hopen, ⟨?_, ?_⟩, ?_⟩
    · simp only [flagNames, List.forall_mem_cons]
      exact ⟨hactive.1, hincidents.1, hcompleted.1, hcanceled.1, by simp⟩
    · simp only [textNames, List.forall_mem_cons]
      exact ⟨hids.1, herrorMessage.1, hstartDate.1, hendDate.1, hactivityId.1, hworkflow.1,
        hversion.1, hvariable.1, by simp⟩
    · simp only [ofFields, hactive.2, hincidents.2, hcompleted.2, hcanceled.2, hids.2,
        herrorMessage.2, hstartDate.2, hendDate.2, hactivityId.2, hworkflow.2, hversion.2,
        hvariable.2]
  · rintro ⟨fields, hopen, htyped, rfl⟩
    have hflag : ∀ name ∈ flagNames,
        fields.optional name Json.bool? = some ((fields name).bind Json.bool?) :=
      fun name hname => optional_bool_eq_some_iff.mpr ⟨htyped.flags name hname, rfl⟩
    have htext : ∀ name ∈ textNames,
        fields.optional name Json.text? = some ((fields name).bind Json.text?) :=
      fun name hname => optional_text_eq_some_iff.mpr ⟨htyped.texts name hname, rfl⟩
    rw [ofJson?, hopen, Option.bind_eq_bind, Option.bind_some, hflag "active" (by decide),
      hflag "incidents" (by decide), hflag "completed" (by decide), hflag "canceled" (by decide),
      htext "ids" (by decide), htext "errorMessage" (by decide), htext "startDate" (by decide),
      htext "endDate" (by decide), htext "activityId" (by decide), htext "workflow" (by decide),
      htext "version" (by decide), htext "variable" (by decide)]
    rfl

/-! ## Single fields -/

/-- What a text stands for by what it reads as: nothing when it is blank. -/
def unlessBlank {α : Type} (s : String) (read : Option α) : Option (Option α) :=
  if Text.isBlank s then some none else read.map some

theorem toOption_decodeDate (field : DateField) (s : String) :
    (decodeDate field s).toOption = unlessBlank s (Date.ofTightText? (Text.trim s)) := by
  unfold decodeDate unlessBlank
  by_cases hblank : Text.isBlank s = true
  · rw [if_pos hblank, if_pos hblank]
    rfl
  · rw [if_neg hblank, if_neg hblank]
    cases Date.ofTightText? (Text.trim s) with
    | none => rfl
    | some date => rfl

theorem toOption_decodeVersion (s : String) :
    (decodeVersion s).toOption = unlessBlank s (WorkflowVersion.ofText? (Text.trim s)) := by
  unfold decodeVersion unlessBlank
  by_cases hblank : Text.isBlank s = true
  · rw [if_pos hblank, if_pos hblank]
    rfl
  · rw [if_neg hblank, if_neg hblank]
    cases WorkflowVersion.ofText? (Text.trim s) with
    | none => rfl
    | some version => rfl

theorem toOption_decodeVariable (s : String) :
    (decodeVariable s).toOption = unlessBlank s ((Json.read s).bind VariableFilter.ofJson?) := by
  unfold decodeVariable unlessBlank
  by_cases hblank : Text.isBlank s = true
  · rw [if_pos hblank, if_pos hblank]
    rfl
  · rw [if_neg hblank, if_neg hblank]
    cases (Json.read s).bind VariableFilter.ofJson? with
    | none => rfl
    | some v => rfl

variable {α : Type} {decode : String → Except FilterError (Option α)} {read : String → Option α}

theorem eq_ok_iff_toOption {ε β : Type} {x : Except ε β} {b : β} :
    x = .ok b ↔ x.toOption = some b := by
  cases x <;> simp [Except.toOption]

/-- A field decodes when its text is blank or can be read. -/
theorem exists_decodeField_eq_ok_iff (h : ∀ s, (decode s).toOption = unlessBlank s (read s))
    {o : Option String} :
    (∃ a, decodeField decode o = .ok a) ↔
      ∀ s, o = some s → Text.isBlank s = true ∨ ∃ a, read s = some a := by
  cases o with
  | none => simp [decodeField]
  | some s =>
      simp only [decodeField, eq_ok_iff_toOption, h, unlessBlank, Option.some.injEq,
        forall_eq']
      by_cases hblank : Text.isBlank s = true
      · simp [hblank]
      · cases read s with
        | none => simp [hblank]
        | some a => simp [hblank]

/-- What a field decodes to is what its text reads as, if that is not blank. -/
theorem decodeField_eq_some_iff (h : ∀ s, (decode s).toOption = unlessBlank s (read s))
    {o : Option String} {value : Option α} (hvalue : decodeField decode o = .ok value) {a : α} :
    value = some a ↔ ∃ s, o = some s ∧ Text.isBlank s = false ∧ read s = some a := by
  cases o with
  | none =>
      obtain rfl := Except.ok.inj hvalue
      simp
  | some s =>
      have hread : unlessBlank s (read s) = some value := by
        rw [← h]
        exact eq_ok_iff_toOption.mp hvalue
      rw [unlessBlank] at hread
      by_cases hblank : Text.isBlank s = true
      · rw [if_pos hblank] at hread
        obtain rfl := Option.some.inj hread
        simp [hblank]
      · rw [if_neg hblank] at hread
        obtain ⟨b, hb, rfl⟩ := Option.map_eq_some_iff.mp hread
        simp [hblank, hb]

/-- A field that decodes is set unless its text is blank. -/
theorem decodeField_ne_none_iff (h : ∀ s, (decode s).toOption = unlessBlank s (read s))
    {o : Option String} {value : Option α} (hvalue : decodeField decode o = .ok value) :
    value ≠ none ↔ ∃ s, o = some s ∧ Text.isBlank s = false := by
  simp only [Option.ne_none_iff_exists', decodeField_eq_some_iff h hvalue]
  constructor
  · rintro ⟨a, s, hs, hblank, -⟩
    exact ⟨s, hs, hblank⟩
  · rintro ⟨s, hs, hblank⟩
    rcases (exists_decodeField_eq_ok_iff h).mp ⟨value, hvalue⟩ s hs with hempty | ⟨a, ha⟩
    · simp [hempty] at hblank
    · exact ⟨a, s, hs, hblank, ha⟩

end WireFilter

/-! ## Fields that are set -/

namespace Filter

theorem isEmpty_eq_false_iff {f : Filter} :
    f.isEmpty = false ↔
      f.active ≠ none ∨ f.incidents ≠ none ∨ f.completed ≠ none ∨ f.canceled ≠ none ∨
      f.ids ≠ none ∨ f.errorMessage ≠ none ∨ f.startDate ≠ none ∨ f.endDate ≠ none ∨
      f.activityId ≠ none ∨ f.workflow ≠ none ∨ f.version ≠ none ∨ f.variableFilter ≠ none := by
  cases f
  simp only [isEmpty, decide_eq_false_iff_not, Filter.mk.injEq, not_and_or, ne_eq]

theorem filter_ne_none_iff {α : Type} {p : α → Bool} {o : Option α} :
    o.filter p ≠ none ↔ ∃ a, o = some a ∧ p a = true := by
  simp only [Option.ne_none_iff_exists', Option.filter_eq_some_iff]

/-- A text that stays set is not blank. -/
theorem bind_unlessBlank_ne_none_iff {o : Option String} :
    o.bind unlessBlank ≠ none ↔ ∃ s, o = some s ∧ Text.isBlank s = false := by
  cases o with
  | none => simp
  | some s => cases h : Text.isBlank s <;> simp [unlessBlank, h]

end Filter

namespace WireFilter

theorem toFilter_eq_ok_iff {w : WireFilter} {f : Filter} :
    w.toFilter = .ok f ↔ ∃ startDate endDate version variableFilter,
      decodeField (decodeDate .startDate) w.startDate = .ok startDate ∧
      decodeField (decodeDate .endDate) w.endDate = .ok endDate ∧
      decodeField decodeVersion w.version = .ok version ∧
      decodeField decodeVariable w.variableFilter = .ok variableFilter ∧
      Filter.normalized
        { active := w.active
          incidents := w.incidents
          completed := w.completed
          canceled := w.canceled
          ids := w.ids.map splitIds
          errorMessage := w.errorMessage
          startDate
          endDate
          activityId := w.activityId
          workflow := w.workflow
          version
          variableFilter } = f := by
  constructor
  · intro h
    obtain ⟨startDate, hstart, h⟩ := exists_ok_of_bind_eq_ok h
    obtain ⟨endDate, hend, h⟩ := exists_ok_of_bind_eq_ok h
    obtain ⟨version, hversion, h⟩ := exists_ok_of_bind_eq_ok h
    obtain ⟨variableFilter, hvariable, h⟩ := exists_ok_of_bind_eq_ok h
    exact ⟨startDate, endDate, version, variableFilter, hstart, hend, hversion, hvariable,
      Except.ok.inj h⟩
  · rintro ⟨startDate, endDate, version, variableFilter, hstart, hend, hversion, hvariable, rfl⟩
    rw [toFilter, hstart, hend, hversion, hvariable]
    rfl

section Set

variable {fields : Json.Fields} {name : String}

theorem flag_ne_none_iff :
    (fields name).bind Json.bool? ≠ none ↔ ∃ b, fields name = some (.bool b) := by
  simp only [Option.ne_none_iff_exists', Json.bind_bool?_eq_some_iff]

theorem text_ne_none_iff :
    ((fields name).bind Json.text?).bind Filter.unlessBlank ≠ none ↔
      ∃ s, fields name = some (.text s) ∧ Text.isBlank s = false := by
  simp only [Filter.bind_unlessBlank_ne_none_iff, Json.bind_text?_eq_some_iff]

theorem ids_ne_none_iff :
    (((fields name).bind Json.text?).map splitIds).filter (· ≠ []) ≠ none ↔
      ∃ s, fields name = some (.text s) ∧ splitIds s ≠ [] := by
  rw [Filter.filter_ne_none_iff]
  constructor
  · rintro ⟨ids, hids, hne⟩
    obtain ⟨s, hs, rfl⟩ := Option.map_eq_some_iff.mp hids
    exact ⟨s, Json.bind_text?_eq_some_iff.mp hs, by simpa using hne⟩
  · rintro ⟨s, hs, hne⟩
    exact ⟨splitIds s, Option.map_eq_some_iff.mpr ⟨s, Json.bind_text?_eq_some_iff.mpr hs, rfl⟩,
      by simpa using hne⟩

theorem decoded_ne_none_iff {α : Type} {decode : String → Except FilterError (Option α)}
    {read : String → Option α} (h : ∀ s, (decode s).toOption = unlessBlank s (read s))
    {value : Option α} (hvalue : decodeField decode ((fields name).bind Json.text?) = .ok value) :
    value ≠ none ↔ ∃ s, fields name = some (.text s) ∧ Text.isBlank s = false := by
  simp only [decodeField_ne_none_iff h hvalue, Json.bind_text?_eq_some_iff]

theorem variable_ne_none_iff {value : Option VariableFilter}
    (hvalue : decodeField decodeVariable ((fields name).bind Json.text?) = .ok value) :
    value.filter (fun v => !Text.isBlank v.name) ≠ none ↔
      ∃ s v, fields name = some (.text s) ∧ Text.isBlank s = false ∧
        (Json.read s).bind VariableFilter.ofJson? = some v ∧ Text.isBlank v.name = false := by
  simp only [Filter.filter_ne_none_iff, decodeField_eq_some_iff toOption_decodeVariable hvalue,
    Json.bind_text?_eq_some_iff, Bool.not_eq_true']
  constructor
  · rintro ⟨v, ⟨s, hs, hblank, hread⟩, hname⟩
    exact ⟨s, v, hs, hblank, hread, hname⟩
  · rintro ⟨s, v, hs, hblank, hread, hname⟩
    exact ⟨v, ⟨s, hs, hblank, hread⟩, hname⟩

/-- Whether a field is still set in the filter can be seen from the texts. -/
theorem isEmpty_eq_false_iff_setsField {f : Filter} (h : (ofFields fields).toFilter = .ok f) :
    f.isEmpty = false ↔ SetsField fields := by
  obtain ⟨startDate, endDate, version, variableFilter, hstart, hend, hversion, hvariable, rfl⟩ :=
    toFilter_eq_ok_iff.mp h
  rw [Filter.isEmpty_eq_false_iff, SetsField]
  simp only [flagNames, List.mem_cons, exists_eq_or_imp, List.not_mem_nil, or_false,
    exists_eq_left, or_assoc]
  -- Field by field, in the order of the filter.
  exact or_congr flag_ne_none_iff <| or_congr flag_ne_none_iff <| or_congr flag_ne_none_iff <|
    or_congr flag_ne_none_iff <| or_congr ids_ne_none_iff <| or_congr text_ne_none_iff <|
    or_congr (decoded_ne_none_iff (toOption_decodeDate _) hstart) <|
    or_congr (decoded_ne_none_iff (toOption_decodeDate _) hend) <|
    or_congr text_ne_none_iff <| or_congr text_ne_none_iff <|
    or_congr (decoded_ne_none_iff toOption_decodeVersion hversion)
      (variable_ne_none_iff hvariable)

end Set

/-- A filter comes of the fields when all their texts can be read. -/
theorem exists_toFilter_eq_ok_iff {fields : Json.Fields} :
    (∃ f, (ofFields fields).toFilter = .ok f) ↔ Readable fields := by
  have hdate : ∀ (field : DateField) (name : String),
      (∃ a, decodeField (decodeDate field) ((fields name).bind Json.text?) = .ok a) ↔
        ∀ s, fields name = some (.text s) →
          Text.isBlank s = true ∨ ∃ date, Date.ofTightText? (Text.trim s) = some date := by
    intro field name
    simp only [exists_decodeField_eq_ok_iff (toOption_decodeDate field),
      Json.bind_text?_eq_some_iff]
  have hversion := exists_decodeField_eq_ok_iff toOption_decodeVersion
    (o := (fields "version").bind Json.text?)
  have hvariable := exists_decodeField_eq_ok_iff toOption_decodeVariable
    (o := (fields "variable").bind Json.text?)
  simp only [Json.bind_text?_eq_some_iff, WorkflowVersion.exists_ofText?_eq_some_iff] at hversion
  simp only [Json.bind_text?_eq_some_iff] at hvariable
  simp only [toFilter_eq_ok_iff]
  constructor
  · rintro ⟨f, startDate, endDate, version, variableFilter, hs, he, hv, hw, -⟩
    refine ⟨?_, hversion.mp ⟨version, hv⟩, hvariable.mp ⟨variableFilter, hw⟩⟩
    simp only [List.forall_mem_cons]
    exact ⟨(hdate _ _).mp ⟨startDate, hs⟩, (hdate _ _).mp ⟨endDate, he⟩, by simp⟩
  · rintro ⟨hdates, hversions, hvariables⟩
    obtain ⟨startDate, hs⟩ := (hdate .startDate "startDate").mpr (hdates "startDate" (by simp))
    obtain ⟨endDate, he⟩ := (hdate .endDate "endDate").mpr (hdates "endDate" (by simp))
    obtain ⟨version, hv⟩ := hversion.mpr hversions
    obtain ⟨variableFilter, hw⟩ := hvariable.mpr hvariables
    exact ⟨_, startDate, endDate, version, variableFilter, hs, he, hv, hw, rfl⟩

/-! ## Whole query strings -/

/-- A document that reads as a wire form, from which a filter with some field set comes. -/
theorem acceptedDocument_iff {j : Json} :
    AcceptedDocument j ↔
      ∃ w f, ofJson? j = some w ∧ w.toFilter = .ok f ∧ f.isEmpty = false := by
  have hfields : ∀ fields : Json.Fields,
      Accepted fields ↔
        Typed fields ∧ ∃ f, (ofFields fields).toFilter = .ok f ∧ f.isEmpty = false := by
    intro fields
    constructor
    · intro h
      obtain ⟨f, hf⟩ := exists_toFilter_eq_ok_iff.mpr h.readable
      exact ⟨h.typed, f, hf, (isEmpty_eq_false_iff_setsField hf).mpr h.setsField⟩
    · rintro ⟨htyped, f, hf, hset⟩
      exact ⟨htyped, exists_toFilter_eq_ok_iff.mp ⟨f, hf⟩,
        (isEmpty_eq_false_iff_setsField hf).mp hset⟩
  simp only [ofJson?_eq_some_iff, Json.closedRecord?_eq_some_iff]
  constructor
  · intro h
    cases h with
    | object members known once accepted =>
        obtain ⟨htyped, f, hf, hset⟩ := (hfields _).mp accepted
        exact ⟨_, f, ⟨_, .inl ⟨members, rfl, known, once, rfl⟩, htyped, rfl⟩, hf, hset⟩
    | array items length_le accepted =>
        obtain ⟨htyped, f, hf, hset⟩ := (hfields _).mp accepted
        exact ⟨_, f, ⟨_, .inr ⟨items, rfl, length_le, rfl⟩, htyped, rfl⟩, hf, hset⟩
  · rintro ⟨w, f, ⟨fields, hopen, htyped, rfl⟩, hf, hset⟩
    have haccepted := (hfields fields).mpr ⟨htyped, f, hf, hset⟩
    rcases hopen with ⟨members, rfl, known, once, rfl⟩ | ⟨items, rfl, length_le, rfl⟩
    · exact .object members known once haccepted
    · exact .array items length_le haccepted

theorem ofQuery_eq_ok_iff {search : String} {w : WireFilter} :
    ofQuery search = .ok w ↔
      ∃ value j, parameter? search = some value ∧ Json.read value = some j ∧
        ofJson? j = some w := by
  unfold ofQuery parameter?
  dsimp only
  cases FormEncoding.lastValue? filterParameter
    (FormEncoding.decode (Utf8.encode (dropQuestionMark search))) with
  | none => simp
  | some value =>
      cases hread : Json.read value with
      | none => simp [hread]
      | some j => cases hj : ofJson? j <;> simp [hread, hj]

end WireFilter

namespace Filter

/-- **The query strings that carry a filter** are those that are accepted. -/
theorem exists_ofQuery_eq_ok_iff {search : String} :
    (∃ f, ofQuery search = .ok f) ↔ WireFilter.AcceptedQuery search := by
  simp only [WireFilter.AcceptedQuery, WireFilter.acceptedDocument_iff]
  constructor
  · rintro ⟨f, h⟩
    obtain ⟨w, hw, h⟩ := exists_ok_of_bind_eq_ok h
    obtain ⟨g, hg, h⟩ := exists_ok_of_bind_eq_ok h
    obtain ⟨value, j, hvalue, hread, hj⟩ := WireFilter.ofQuery_eq_ok_iff.mp hw
    refine ⟨value, j, hvalue, hread, w, g, hj, hg, ?_⟩
    by_cases hempty : g.isEmpty = true
    · simp [hempty] at h
    · simpa using hempty
  · rintro ⟨value, j, hvalue, hread, w, f, hj, hf, hset⟩
    have hw := WireFilter.ofQuery_eq_ok_iff.mpr ⟨value, j, hvalue, hread, hj⟩
    refine ⟨f, ?_⟩
    show (WireFilter.ofQuery search >>= _) = _
    rw [hw]
    show (w.toFilter >>= _) = _
    rw [hf]
    show (if f.isEmpty then _ else _) = _
    rw [hset]
    rfl

/-- An array of flags is a filter, though it is no object. -/
theorem ofQuery_of_array :
    (∃ f, ofQuery "?filter=[true]" = .ok f) ∧
      WireFilter.parameter? "?filter=[true]" = some "[true]" ∧
      ∀ members, Json.read "[true]" ≠ some (.obj members) := by
  have hread : Json.read "[true]" = some (.arr [.bool true]) := rfl
  refine ⟨⟨{ active := some true }, rfl⟩, rfl, ?_⟩
  intro members h
  cases hread.symm.trans h

end Filter

end InstanceConsole

import InstanceConsole.Filter.Criteria
import InstanceConsole.Proofs.Calendar.TimestampText
import InstanceConsole.Proofs.Filter.WireForm
import InstanceConsole.Proofs.Json.Fields

/-!
# Filters and criteria read back

The document of a filter stands for that filter. That of criteria stands for these criteria with
their timestamps as they are read, which are the same unless one of them lies in a leap second that
is not the end of a minute, `Criteria.asRead_eq_self_iff`. Criteria may stand among other members,
so for them the statement is about any record that has their fields.
-/

set_option autoImplicit false

namespace InstanceConsole

theorem Date.ofJson?_toJson (d : Date) : ofJson? d.toJson = some d := by
  rw [ofJson?, toJson, Json.text?_text, Option.bind_some, ofText?_text]

theorem Timestamp.ofJson?_toJson (t : Timestamp) : ofJson? t.toJson = some t.asRead := by
  rw [ofJson?, toJson, Json.text?_text, Option.bind_some, ofText?_text]

theorem Timestamp.leapEndsMinute_of_ofJson? (j : Json) (t : Timestamp) (h : ofJson? j = some t) :
    t.LeapEndsMinute := by
  obtain ⟨s, -, hs⟩ := Option.bind_eq_some_iff.mp h
  exact leapEndsMinute_of_ofText? hs

theorem Timestamp.map_asRead_eq_self_iff {o : Option Timestamp} :
    o.map asRead = o ↔ ∀ t ∈ o, t.LeapEndsMinute := by
  cases o with
  | none => simp
  | some t => simp [asRead_eq_self_iff]

theorem WorkflowVersion.ofJson?_toJson (v : WorkflowVersion) : ofJson? v.toJson = some v := by
  cases v with
  | all => rfl
  | number n => exact WireFilter.ofText?_number n

namespace Json.Fields

variable {fields : Fields} {name : String}

theorem optional_date (o : Option Date) (hfield : fields name = o.map Date.toJson) :
    fields.optional name Date.ofJson? = some o :=
  optional_eq hfield Date.ofJson?_toJson (by simp [Date.toJson, text])

theorem optional_timestamp (o : Option Timestamp)
    (hfield : fields name = o.map Timestamp.toJson) :
    fields.optional name Timestamp.ofJson? = some (o.map Timestamp.asRead) :=
  optional_map hfield Timestamp.ofJson?_toJson (by simp [Timestamp.toJson, text])

theorem optional_variable (o : Option VariableFilter)
    (hfield : fields name = o.map VariableFilter.toJson) :
    fields.optional name VariableFilter.ofJson? = some o :=
  optional_eq hfield VariableFilter.ofJson?_toJson (by simp [VariableFilter.toJson, record])

end Json.Fields

/-! ## Filters -/

namespace Filter

theorem ofJson?_toJson (f : Filter) : ofJson? f.toJson = some f := by
  have hids : ∀ (fields : Json.Fields),
      fields "ids" = f.ids.map (fun ids => .arr (ids.map .text)) →
        fields.optional "ids" (Json.list? Json.text?) = some f.ids :=
    fun _ h => Json.Fields.optional_eq h (Json.list?_self Json.text?_text) (by simp)
  have hversion : ∀ (fields : Json.Fields),
      fields "version" = f.version.map WorkflowVersion.toJson →
        fields.optional "version" WorkflowVersion.ofJson? = some f.version :=
    fun _ h => Json.Fields.optional_eq h WorkflowVersion.ofJson?_toJson
      (by simp [WorkflowVersion.toJson, Json.text])
  rw [ofJson?, toJson, Json.openRecord?_record, Option.bind_eq_bind, Option.bind_some,
    Json.Fields.optional_bool f.active, Json.Fields.optional_bool f.incidents,
    Json.Fields.optional_bool f.completed, Json.Fields.optional_bool f.canceled, hids,
    Json.Fields.optional_text f.errorMessage, Json.Fields.optional_date f.startDate,
    Json.Fields.optional_date f.endDate, Json.Fields.optional_text f.activityId,
    Json.Fields.optional_text f.workflow, hversion,
    Json.Fields.optional_variable f.variableFilter]
  · rfl
  case hsub =>
    simp only [List.append_assoc]
    iterate 11 apply Json.optionalMember_append_sublist
    exact Json.map_optionalMember ..
  case hnodup => decide
  all_goals simp [List.lookup_append, Json.lookup_optionalMember]

end Filter

/-! ## Criteria -/

namespace Criteria

/-- The timestamps in criteria. -/
def timestamps (c : Criteria) : List Timestamp :=
  c.startDateAfter.toList ++ c.startDateBefore.toList ++ c.endDateAfter.toList ++
    c.endDateBefore.toList

/-- Criteria with their timestamps as they are read. -/
def asRead (c : Criteria) : Criteria :=
  { c with
    startDateAfter := c.startDateAfter.map .asRead
    startDateBefore := c.startDateBefore.map .asRead
    endDateAfter := c.endDateAfter.map .asRead
    endDateBefore := c.endDateBefore.map .asRead }

theorem asRead_eq_self_iff {c : Criteria} :
    c.asRead = c ↔ ∀ t ∈ c.timestamps, t.LeapEndsMinute := by
  cases c
  simp [asRead, timestamps, Timestamp.map_asRead_eq_self_iff, or_imp, forall_and]

theorem names_members_sublist (c : Criteria) : (c.members.map (·.1)).Sublist fieldNames := by
  simp only [members, List.append_assoc, List.cons_append, List.nil_append, List.map_cons]
  -- The flags are always there.
  iterate 6 apply List.Sublist.cons_cons
  apply Json.listMember_append_sublist
  iterate 8 apply Json.optionalMember_append_sublist
  exact Json.map_optionalMember ..

/-- Criteria are read from any record that has their members under their names. -/
theorem ofFields?_eq {fields : Json.Fields} (c : Criteria)
    (h : ∀ name ∈ fieldNames, fields name = c.members.lookup name) :
    ofFields? fields = some c.asRead := by
  have hids : fields.defaulted "ids" [] (Json.list? Json.text?) = some c.ids := by
    refine Json.Fields.defaulted_list ?_ Json.text?_text
    rw [h _ (by decide)]
    simp [members, List.lookup_cons, List.lookup_append, Json.lookup_optionalMember,
      Json.lookup_listMember]
  rw [ofFields?, Json.Fields.required_bool c.running, Json.Fields.required_bool c.active,
    Json.Fields.required_bool c.incidents, Json.Fields.required_bool c.finished,
    Json.Fields.required_bool c.completed, Json.Fields.required_bool c.canceled, hids,
    Json.Fields.optional_text c.errorMessage, Json.Fields.optional_timestamp c.startDateAfter,
    Json.Fields.optional_timestamp c.startDateBefore,
    Json.Fields.optional_timestamp c.endDateAfter, Json.Fields.optional_timestamp c.endDateBefore,
    Json.Fields.optional_text c.activityId, Json.Fields.optional_text c.bpmnProcessId,
    Json.Fields.optional_word c.workflowVersion, Json.Fields.optional_variable c.variableFilter]
  · rfl
  all_goals
    rw [h _ (by decide)]
    simp [members, List.lookup_cons, List.lookup_append, Json.lookup_optionalMember,
      Json.lookup_listMember]

/-- Leap seconds that are read end minutes. -/
theorem leapEndsMinute_of_ofFields? {fields : Json.Fields} {c : Criteria}
    (h : ofFields? fields = some c) : ∀ t ∈ c.timestamps, t.LeapEndsMinute := by
  have hread : ∀ {name : String} {o : Option Timestamp},
      fields.optional name Timestamp.ofJson? = some o → ∀ t ∈ o, t.LeapEndsMinute :=
    Json.Fields.forall_of_optional Timestamp.leapEndsMinute_of_ofJson?
  rw [ofFields?] at h
  -- The four timestamps come after eight other fields, and before four more.
  iterate 8 obtain ⟨_, -, h⟩ := Option.bind_eq_some_iff.mp h
  obtain ⟨startDateAfter, hstartAfter, h⟩ := Option.bind_eq_some_iff.mp h
  obtain ⟨startDateBefore, hstartBefore, h⟩ := Option.bind_eq_some_iff.mp h
  obtain ⟨endDateAfter, hendAfter, h⟩ := Option.bind_eq_some_iff.mp h
  obtain ⟨endDateBefore, hendBefore, h⟩ := Option.bind_eq_some_iff.mp h
  iterate 4 obtain ⟨_, -, h⟩ := Option.bind_eq_some_iff.mp h
  obtain rfl := Option.some.inj h
  simp only [timestamps, List.forall_mem_append, Option.mem_toList]
  exact ⟨⟨⟨hread hstartAfter, hread hstartBefore⟩, hread hendAfter⟩, hread hendBefore⟩

theorem ofJson?_toJson (c : Criteria) : ofJson? c.toJson = some c.asRead := by
  have hopen : Json.openRecord? fieldNames c.toJson = some fun name => c.members.lookup name :=
    Json.openRecord?_record c.names_members_sublist (by decide)
  rw [ofJson?, hopen, Option.bind_some]
  exact c.ofFields?_eq fun _ _ => rfl

/-- The criteria of the default filter, from a leap second in the middle of a minute on. -/
def fromLeap : Criteria :=
  { Filter.default.criteria with startDateAfter := some .leapWithinMinute }

/-- Nothing in criteria is too deep or too large to be kept whole. -/
theorem isKeepable_of_mem_members {level : Nat} (hlevel : level < Json.depthLimit) (c : Criteria) :
    ∀ m ∈ c.members, m.2.isKeepable level = true := by
  have htext : ∀ s, (Json.text s).isKeepable level = true := fun _ => rfl
  have hvariable : ∀ v : VariableFilter, v.toJson.isKeepable level = true := fun v =>
    Json.isKeepable_record hlevel (by simp [Json.text, Json.isKeepable])
  simp only [members, List.append_assoc, List.cons_append, List.nil_append, List.forall_mem_cons,
    List.forall_mem_append]
  refine ⟨rfl, rfl, rfl, rfl, rfl, rfl, Json.isKeepable_listMember hlevel c.ids, ?_, ?_, ?_, ?_,
    ?_, ?_, ?_, ?_, ?_⟩
  · exact Json.isKeepable_optionalMember htext
  · exact Json.isKeepable_optionalMember fun t => htext t.text
  · exact Json.isKeepable_optionalMember fun t => htext t.text
  · exact Json.isKeepable_optionalMember fun t => htext t.text
  · exact Json.isKeepable_optionalMember fun t => htext t.text
  · exact Json.isKeepable_optionalMember htext
  · exact Json.isKeepable_optionalMember htext
  · exact Json.isKeepable_optionalMember (Json.isKeepable_word level)
  · exact Json.isKeepable_optionalMember hvariable

end Criteria

end InstanceConsole

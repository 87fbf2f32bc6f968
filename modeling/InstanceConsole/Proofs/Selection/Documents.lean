import InstanceConsole.Proofs.Filter.Documents
import InstanceConsole.Selection.Basic

/-!
# Selections read back

The document of a selection stands for that selection with its timestamps as they are read,
wherever in a document it lies. A query needs some room there: it is read from an object that is
kept whole, and what lies too deep cannot be kept. Its criteria and its exclusions share one record,
and no name is in both.

Each type of document has here what it is read as, the timestamps in it, and that it is read as
itself exactly when every leap second among them ends a minute. What has been read is such.
-/

set_option autoImplicit false

namespace InstanceConsole

/-- A list in which every item stands for itself under a condition stands for itself when the
condition holds throughout. -/
theorem map_eq_self_iff_of_forall {α β : Type} {f : α → α} {parts : α → List β} {P : β → Prop}
    (h : ∀ {a : α}, f a = a ↔ ∀ b ∈ parts a, P b) {as : List α} :
    as.map f = as ↔ ∀ b ∈ as.flatMap parts, P b := by
  have hself : as.map f = as ↔ ∀ a ∈ as, f a = a := by
    simpa using List.map_inj_left (f := f) (g := id) (l := as)
  simp only [hself, h, List.forall_mem_flatMap]

/-! ## Instances -/

theorem InstanceState.ofJson?_toJson (s : InstanceState) : ofJson? s.toJson = some s := by
  cases s <;> decide

namespace WorkflowInstance

/-- The timestamps in an instance. -/
def timestamps (i : WorkflowInstance) : List Timestamp := i.startDate :: i.endDate.toList

/-- An instance with its timestamps as they are read. -/
def asRead (i : WorkflowInstance) : WorkflowInstance :=
  { i with startDate := i.startDate.asRead, endDate := i.endDate.map .asRead }

theorem asRead_eq_self_iff {i : WorkflowInstance} :
    i.asRead = i ↔ ∀ t ∈ i.timestamps, t.LeapEndsMinute := by
  cases i
  simp [asRead, timestamps, Timestamp.asRead_eq_self_iff, Timestamp.map_asRead_eq_self_iff]

theorem ofJson?_toJson (i : WorkflowInstance) : ofJson? i.toJson = some i.asRead := by
  have hstate : ∀ (fields : Json.Fields), fields "state" = some i.state.toJson →
      fields.required "state" InstanceState.ofJson? = some i.state :=
    fun _ h => Json.Fields.required_eq h (InstanceState.ofJson?_toJson _)
  have hstart : ∀ (fields : Json.Fields), fields "startDate" = some i.startDate.toJson →
      fields.required "startDate" Timestamp.ofJson? = some i.startDate.asRead :=
    fun _ h => Json.Fields.required_eq h (Timestamp.ofJson?_toJson _)
  rw [ofJson?, toJson, Json.openRecord?_record, Option.bind_eq_bind, Option.bind_some,
    Json.Fields.required_text i.id, Json.Fields.required_text i.workflowId,
    Json.Fields.optional_text i.workflowName, Json.Fields.optional_word i.workflowVersion,
    Json.Fields.optional_text i.bpmnProcessId, hstate, hstart,
    Json.Fields.optional_timestamp i.endDate]
  · rfl
  case hsub =>
    simp only [List.append_assoc, List.cons_append, List.nil_append, List.map_cons]
    iterate 2 apply List.Sublist.cons_cons
    iterate 3 apply Json.optionalMember_append_sublist
    iterate 2 apply List.Sublist.cons_cons
    exact Json.map_optionalMember ..
  case hnodup => decide
  all_goals simp [List.lookup_cons, List.lookup_append, Json.lookup_optionalMember]

theorem leapEndsMinute_of_ofJson? (j : Json) (i : WorkflowInstance) (h : ofJson? j = some i) :
    ∀ t ∈ i.timestamps, t.LeapEndsMinute := by
  obtain ⟨fields, -, h⟩ := Option.bind_eq_some_iff.mp h
  iterate 6 obtain ⟨_, -, h⟩ := Option.bind_eq_some_iff.mp h
  obtain ⟨startDate, hstart, h⟩ := Option.bind_eq_some_iff.mp h
  obtain ⟨endDate, hend, h⟩ := Option.bind_eq_some_iff.mp h
  obtain rfl := Option.some.inj h
  have hstarted : startDate.LeapEndsMinute :=
    Json.Fields.of_required Timestamp.leapEndsMinute_of_ofJson? hstart
  have hended : ∀ t ∈ endDate, t.LeapEndsMinute :=
    Json.Fields.forall_of_optional Timestamp.leapEndsMinute_of_ofJson? hend
  simp only [timestamps, List.forall_mem_cons, Option.mem_toList]
  exact ⟨hstarted, hended⟩

end WorkflowInstance

theorem Json.Fields.defaulted_instances {fields : Json.Fields} {name : String}
    (instances : List WorkflowInstance)
    (hfield : fields name = some (.arr (instances.map WorkflowInstance.toJson))) :
    fields.defaulted name [] (Json.list? WorkflowInstance.ofJson?) =
      some (instances.map WorkflowInstance.asRead) :=
  defaulted_eq hfield (Json.list?_map WorkflowInstance.ofJson?_toJson instances) []

/-! ## Queries -/

namespace SelectionQuery

/-- The timestamps in a query. -/
def timestamps (q : SelectionQuery) : List Timestamp := q.criteria.timestamps

/-- A query with its timestamps as they are read. -/
def asRead (q : SelectionQuery) : SelectionQuery := { q with criteria := q.criteria.asRead }

theorem asRead_eq_self_iff {q : SelectionQuery} :
    q.asRead = q ↔ ∀ t ∈ q.timestamps, t.LeapEndsMinute := by
  cases q
  simp [asRead, timestamps, Criteria.asRead_eq_self_iff]

theorem lookup_excludeIds (q : SelectionQuery) {name : String} (h : name ∈ Criteria.fieldNames) :
    (q.criteria.members ++ Json.listMember "excludeIds" .text q.excludeIds).lookup name =
      q.criteria.members.lookup name := by
  have hother : name ≠ "excludeIds" := by
    rintro rfl
    revert h
    decide
  simp [List.lookup_append, Json.lookup_listMember, hother]

/-- The record of a query gives every member back to the part that it comes from. -/
theorem openRecord?_toJson (q : SelectionQuery) :
    ∃ fields, Json.openRecord? (Criteria.fieldNames ++ ["excludeIds"]) q.toJson = some fields ∧
      Criteria.ofFields? fields = some q.criteria.asRead ∧
      fields.defaulted "excludeIds" [] (Json.list? Json.text?) = some q.excludeIds := by
  have hsub : ((q.criteria.members ++ Json.listMember "excludeIds" .text q.excludeIds).map
      (·.1)).Sublist (Criteria.fieldNames ++ ["excludeIds"]) := by
    rw [List.map_append]
    exact q.criteria.names_members_sublist.append (Json.map_listMember ..)
  have hexclude : q.criteria.members.lookup "excludeIds" = none := by
    rw [List.lookup_eq_none_iff]
    intro m hm
    have hmem := q.criteria.names_members_sublist.subset (List.mem_map_of_mem hm)
    simp only [bne_iff_ne, ne_eq]
    intro hname
    rw [← hname] at hmem
    revert hmem
    decide
  refine ⟨_, Json.openRecord?_record hsub (by decide),
    q.criteria.ofFields?_eq fun _ => q.lookup_excludeIds, ?_⟩
  refine Json.Fields.defaulted_list ?_ Json.text?_text
  simp [List.lookup_append, hexclude, Json.lookup_listMember]

/-- A query reads back where there is room for one more level below it. -/
theorem ofJson?_toJson {level : Nat} (hlevel : level + 1 < Json.depthLimit) (q : SelectionQuery) :
    ofJson? level q.toJson = some q.asRead := by
  have hkeep : (guard (q.toJson.isKeepable level) : Option Unit) = some () := by
    refine if_pos (Json.isKeepable_record (by omega) ?_)
    rw [List.forall_mem_append]
    exact ⟨q.criteria.isKeepable_of_mem_members hlevel, Json.isKeepable_listMember hlevel _⟩
  obtain ⟨fields, hopen, hcriteria, hlist⟩ := q.openRecord?_toJson
  show (guard (q.toJson.isKeepable level) : Option Unit).bind _ = _
  rw [hkeep, Option.bind_some, hopen, Option.bind_eq_bind, Option.bind_some, hcriteria,
    Option.bind_eq_bind, Option.bind_some, hlist]
  rfl

theorem leapEndsMinute_of_ofJson? (level : Nat) (j : Json) (q : SelectionQuery)
    (h : ofJson? level j = some q) : ∀ t ∈ q.timestamps, t.LeapEndsMinute := by
  unfold ofJson? at h
  split at h
  · obtain ⟨_, -, h⟩ := Option.bind_eq_some_iff.mp h
    obtain ⟨fields, -, h⟩ := Option.bind_eq_some_iff.mp h
    obtain ⟨criteria, hcriteria, h⟩ := Option.bind_eq_some_iff.mp h
    obtain ⟨excludeIds, -, h⟩ := Option.bind_eq_some_iff.mp h
    obtain rfl := Option.some.inj h
    exact Criteria.leapEndsMinute_of_ofFields? hcriteria
  · cases h

end SelectionQuery

/-! ## Payloads and their answers -/

/-- The timestamps in a payload. -/
def SelectionPayload.timestamps (p : SelectionPayload) : List Timestamp :=
  p.queries.flatMap SelectionQuery.timestamps

/-- A payload with its timestamps as they are read. -/
def SelectionPayload.asRead (p : SelectionPayload) : SelectionPayload :=
  { p with queries := p.queries.map SelectionQuery.asRead }

theorem SelectionPayload.asRead_eq_self_iff {p : SelectionPayload} :
    p.asRead = p ↔ ∀ t ∈ p.timestamps, t.LeapEndsMinute := by
  cases p
  simp [asRead, timestamps, map_eq_self_iff_of_forall @SelectionQuery.asRead_eq_self_iff]

theorem SelectionPayload.ofJson?_toJson {level : Nat} (hlevel : level + 3 < Json.depthLimit)
    (p : SelectionPayload) : ofJson? level p.toJson = some p.asRead := by
  have hid : ∀ (fields : Json.Fields),
      fields "selectionId" = p.selectionId.map (fun n => .nat n.toNat) →
        fields.optional "selectionId" Json.count? = some p.selectionId :=
    fun _ h => Json.Fields.optional_eq h Json.count?_nat (by simp [Json.nat])
  have hqueries : ∀ (fields : Json.Fields),
      fields "queries" = some (.arr (p.queries.map SelectionQuery.toJson)) →
        fields.required "queries" (Json.list? (SelectionQuery.ofJson? (level + 2))) =
          some (p.queries.map SelectionQuery.asRead) :=
    fun _ h => Json.Fields.required_eq h
      (Json.list?_map (SelectionQuery.ofJson?_toJson (by omega)) _)
  rw [ofJson?, toJson, Json.openRecord?_record, Option.bind_eq_bind, Option.bind_some, hid,
    hqueries]
  · rfl
  case hsub =>
    apply Json.optionalMember_append_sublist
    exact List.Sublist.refl _
  case hnodup => decide
  all_goals simp [List.lookup_cons, List.lookup_append, Json.lookup_optionalMember]

/-- The timestamps in an answer. -/
def InstancesDetails.timestamps (d : InstancesDetails) : List Timestamp :=
  d.workflowInstances.flatMap WorkflowInstance.timestamps

/-- An answer with its timestamps as they are read. -/
def InstancesDetails.asRead (d : InstancesDetails) : InstancesDetails :=
  { d with workflowInstances := d.workflowInstances.map WorkflowInstance.asRead }

theorem InstancesDetails.asRead_eq_self_iff {d : InstancesDetails} :
    d.asRead = d ↔ ∀ t ∈ d.timestamps, t.LeapEndsMinute := by
  cases d
  simp [asRead, timestamps, map_eq_self_iff_of_forall @WorkflowInstance.asRead_eq_self_iff]

theorem InstancesDetails.ofJson?_toJson (d : InstancesDetails) :
    ofJson? d.toJson = some d.asRead := by
  rw [ofJson?, toJson, Json.openRecord?_record, Option.bind_eq_bind, Option.bind_some,
    Json.Fields.required_count d.totalCount,
    Json.Fields.defaulted_instances d.workflowInstances]
  · rfl
  case hsub => exact List.Sublist.refl _
  case hnodup => decide
  all_goals simp [List.lookup_cons]

/-! ## Selections -/

namespace Selection

/-- The timestamps in a selection. -/
def timestamps (s : Selection) : List Timestamp :=
  s.queries.flatMap SelectionQuery.timestamps ++
    s.workflowInstances.flatMap WorkflowInstance.timestamps

/-- A selection with its timestamps as they are read. -/
def asRead (s : Selection) : Selection :=
  { s with
    queries := s.queries.map SelectionQuery.asRead
    workflowInstances := s.workflowInstances.map WorkflowInstance.asRead }

theorem asRead_eq_self_iff {s : Selection} :
    s.asRead = s ↔ ∀ t ∈ s.timestamps, t.LeapEndsMinute := by
  cases s
  simp only [asRead, timestamps, Selection.mk.injEq, true_and, List.forall_mem_append]
  exact and_congr (map_eq_self_iff_of_forall @SelectionQuery.asRead_eq_self_iff)
    (map_eq_self_iff_of_forall @WorkflowInstance.asRead_eq_self_iff)

/-- A selection of what has started since a leap second in the middle of a minute. -/
def sinceLeap : Selection :=
  { selectionId := 1, totalCount := 2, queries := [{ criteria := .fromLeap }] }

/-- A selection reads back where there is room for its queries. -/
theorem ofJson?_toJson {level : Nat} (hlevel : level + 3 < Json.depthLimit) (s : Selection) :
    ofJson? level s.toJson = some s.asRead := by
  have hqueries : ∀ (fields : Json.Fields),
      fields "queries" = some (.arr (s.queries.map SelectionQuery.toJson)) →
        fields.defaulted "queries" [] (Json.list? (SelectionQuery.ofJson? (level + 2))) =
          some (s.queries.map SelectionQuery.asRead) :=
    fun _ h => Json.Fields.defaulted_eq h
      (Json.list?_map (SelectionQuery.ofJson?_toJson (by omega)) _) []
  rw [ofJson?, toJson, Json.openRecord?_record, Option.bind_eq_bind, Option.bind_some,
    Json.Fields.required_count s.selectionId, Json.Fields.required_count s.totalCount, hqueries,
    Json.Fields.defaulted_instances s.workflowInstances]
  · rfl
  case hsub => exact List.Sublist.refl _
  case hnodup => decide
  all_goals simp [List.lookup_cons]

theorem leapEndsMinute_of_ofJson? (level : Nat) (j : Json) (s : Selection)
    (h : ofJson? level j = some s) : ∀ t ∈ s.timestamps, t.LeapEndsMinute := by
  obtain ⟨fields, -, h⟩ := Option.bind_eq_some_iff.mp h
  iterate 2 obtain ⟨_, -, h⟩ := Option.bind_eq_some_iff.mp h
  obtain ⟨queries, hqueries, h⟩ := Option.bind_eq_some_iff.mp h
  obtain ⟨instances, hinstances, h⟩ := Option.bind_eq_some_iff.mp h
  obtain rfl := Option.some.inj h
  simp only [timestamps, List.forall_mem_append, List.forall_mem_flatMap]
  exact ⟨Json.Fields.forall_of_defaulted (SelectionQuery.leapEndsMinute_of_ofJson? _) hqueries,
    Json.Fields.forall_of_defaulted WorkflowInstance.leapEndsMinute_of_ofJson? hinstances⟩

end Selection

end InstanceConsole

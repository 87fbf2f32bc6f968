import InstanceConsole.Proofs.Basic
import InstanceConsole.Proofs.Selection.Documents
import InstanceConsole.Proofs.Json.ReadBack
import InstanceConsole.Proofs.Text.Utf8
import InstanceConsole.Store.File

/-!
# The stored state read back

The bytes of a state file stand for the state that was written, with its timestamps as they are
read. Three layers lie between the two, the document, its text and its bytes. The text and the bytes
read back whatever they are given.

What a file holds is a state that stands for itself, so an update of it differs from one in memory
at most by the timestamps of the update.
-/

set_option autoImplicit false

namespace InstanceConsole

theorem Utf8.decodeStrict_ofString (s : String) : decodeStrict (ofString s) = some s := by
  have hchars : (s.toList.map some).mapM id = some (s.toList.map id) :=
    @Json.mapM_map Char (Option Char) Char some id id (fun _ => rfl) s.toList
  rw [decodeStrict, ofString, decode_encode, hchars, Option.map_some, List.map_id,
    String.ofList_toList]

/-! ## Timestamps as they are read -/

/-- The timestamps in an update. -/
def StatePatch.timestamps (p : StatePatch) : List Timestamp :=
  (p.selections.getD []).flatMap Selection.timestamps

/-- An update with its timestamps as they are read. -/
def StatePatch.asRead (p : StatePatch) : StatePatch :=
  { p with selections := p.selections.map (List.map Selection.asRead) }

theorem StatePatch.asRead_eq_self_iff {p : StatePatch} :
    p.asRead = p ↔ ∀ t ∈ p.timestamps, t.LeapEndsMinute := by
  cases p with
  | mk filter filterCount selections =>
      cases selections with
      | none => simp [asRead, timestamps]
      | some selections =>
          simp [asRead, timestamps, map_eq_self_iff_of_forall @Selection.asRead_eq_self_iff]

namespace StoredState

/-- The timestamps in a state. -/
def timestamps (s : StoredState) : List Timestamp := s.selections.flatMap Selection.timestamps

/-- A state with its timestamps as they are read. -/
def asRead (s : StoredState) : StoredState :=
  { s with selections := s.selections.map Selection.asRead }

theorem asRead_eq_self_iff {s : StoredState} :
    s.asRead = s ↔ ∀ t ∈ s.timestamps, t.LeapEndsMinute := by
  cases s
  simp [asRead, timestamps, map_eq_self_iff_of_forall @Selection.asRead_eq_self_iff]

theorem asRead_apply (s : StoredState) (p : StatePatch) :
    (s.apply p).asRead = s.asRead.apply p.asRead := by
  cases p with
  | mk filter filterCount selections => cases selections <;> rfl

theorem asRead_foldl_apply (s : StoredState) (patches : List StatePatch) :
    (patches.foldl apply s).asRead = (patches.map StatePatch.asRead).foldl apply s.asRead := by
  induction patches generalizing s with
  | nil => rfl
  | cons patch patches ih =>
      rw [List.foldl_cons, List.map_cons, List.foldl_cons, ih, asRead_apply]

/-! ## The document of a state -/

/-- The members of the document of a state. -/
def members (s : StoredState) : List (String × Json) :=
  Json.optionalMember "filter" Filter.toJson s.filter ++
  [("filterCount", .nat s.filterCount.toNat),
   ("selections", .arr (s.selections.map Selection.toJson)),
   ("rollingSelectionIndex", .nat s.rollingSelectionIndex.toNat),
   ("selectionCount", .nat s.selectionCount.toNat),
   ("instancesInSelectionsCount", .nat s.instancesInSelectionsCount.toNat),
   ("running", .nat s.running.toNat),
   ("incidents", .nat s.incidents.toNat)]

theorem toJson_eq (s : StoredState) : s.toJson = .record s.members := rfl

theorem members_sublist (s : StoredState) : (s.members.map (·.1)).Sublist fieldNames := by
  apply Json.optionalMember_append_sublist
  exact List.Sublist.refl _

/-- The state with the named fields at their defaults. -/
def except (s : StoredState) (removed : List String) : StoredState where
  filter := if "filter" ∈ removed then none else s.filter
  filterCount := if "filterCount" ∈ removed then 0 else s.filterCount
  selections := if "selections" ∈ removed then [] else s.selections
  rollingSelectionIndex := if "rollingSelectionIndex" ∈ removed then 0 else s.rollingSelectionIndex
  selectionCount := if "selectionCount" ∈ removed then 0 else s.selectionCount
  instancesInSelectionsCount :=
    if "instancesInSelectionsCount" ∈ removed then 0 else s.instancesInSelectionsCount
  running := if "running" ∈ removed then 0 else s.running
  incidents := if "incidents" ∈ removed then 0 else s.incidents

theorem except_nil (s : StoredState) : s.except [] = s := by
  simp [except]

theorem asRead_except (s : StoredState) (removed : List String) :
    (s.except removed).asRead = s.asRead.except removed := by
  by_cases hselections : "selections" ∈ removed <;> simp [asRead, except, hselections]

/-- **A document that lacks some members and has others besides** stands for the state with the
fields of those members at their defaults, as it is read. -/
theorem ofJson?_record {s : StoredState} {removed : List String} {found : List (String × Json)}
    (h : found.filter (fun m => m.1 ∈ fieldNames) = s.members.filter fun m => m.1 ∉ removed) :
    ofJson? (.record found) = some (s.except removed).asRead := by
  let fields : Json.Fields := fun name => s.members.lookup name
  -- The fields that are read are those of the whole document, but for some.
  have hopen : Json.openRecord? fieldNames (.record found) = some (fields.except removed) := by
    have honce : ((found.filter fun m => m.1 ∈ fieldNames).map (·.1)).Nodup := by
      rw [h]
      apply List.Nodup.sublist (List.filter_sublist.map _)
      exact s.members_sublist.nodup (by decide)
    have hlookup : (fun name => (s.members.filter fun m => m.1 ∉ removed).lookup name) =
        fields.except removed := by
      funext name
      rw [lookup_filter (fun name => decide (name ∉ removed))]
      simp only [decide_eq_true_eq, ite_not, fields, Json.Fields.except]
    have hopened : false = true → ∀ m ∈ found, m.1 ∈ fieldNames :=
      fun h => absurd h Bool.false_ne_true
    rw [Json.openRecord?, Json.record?_of_once honce hopened, h, hlookup]
  have hfilter : fields "filter" = s.filter.map Filter.toJson →
      fields.optional "filter" Filter.ofJson? = some s.filter :=
    fun h => Json.Fields.optional_eq h Filter.ofJson?_toJson (by simp [Filter.toJson, Json.record])
  have hselections : fields "selections" = some (.arr (s.selections.map Selection.toJson)) →
      fields.defaulted "selections" [] (Json.list? (Selection.ofJson? 2)) =
        some (s.selections.map Selection.asRead) :=
    fun h => Json.Fields.defaulted_eq h
      (Json.list?_map (Selection.ofJson?_toJson (by decide)) _) []
  rw [ofJson?, hopen, Option.bind_eq_bind, Option.bind_some,
    Json.Fields.optional_except (hfilter ?_),
    Json.Fields.defaulted_except (Json.Fields.defaulted_count s.filterCount ?_),
    Json.Fields.defaulted_except (hselections ?_),
    Json.Fields.defaulted_except (Json.Fields.defaulted_count s.rollingSelectionIndex ?_),
    Json.Fields.defaulted_except (Json.Fields.defaulted_count s.selectionCount ?_),
    Json.Fields.defaulted_except (Json.Fields.defaulted_count s.instancesInSelectionsCount ?_),
    Json.Fields.defaulted_except (Json.Fields.defaulted_count s.running ?_),
    Json.Fields.defaulted_except (Json.Fields.defaulted_count s.incidents ?_)]
  · rw [asRead_except]
    rfl
  all_goals
    simp [fields, members, List.lookup_cons, List.lookup_append, Json.lookup_optionalMember]

theorem ofJson?_toJson (s : StoredState) : ofJson? s.toJson = some s.asRead := by
  have h : s.members.filter (fun m => m.1 ∈ fieldNames) = s.members.filter fun m => m.1 ∉ [] := by
    rw [List.filter_eq_self.mpr, List.filter_eq_self.mpr]
    · simp
    · intro m hm
      simpa using s.members_sublist.subset (List.mem_map_of_mem hm)
  rw [toJson_eq, ofJson?_record h, except_nil]

theorem leapEndsMinute_of_ofJson? {j : Json} {s : StoredState} (h : ofJson? j = some s) :
    ∀ t ∈ s.timestamps, t.LeapEndsMinute := by
  rw [ofJson?] at h
  obtain ⟨fields, -, h⟩ := Option.bind_eq_some_iff.mp h
  iterate 2 obtain ⟨_, -, h⟩ := Option.bind_eq_some_iff.mp h
  obtain ⟨selections, hselections, h⟩ := Option.bind_eq_some_iff.mp h
  iterate 5 obtain ⟨_, -, h⟩ := Option.bind_eq_some_iff.mp h
  obtain rfl := Option.some.inj h
  have hread : ∀ selection ∈ selections, ∀ t ∈ selection.timestamps, t.LeapEndsMinute :=
    Json.Fields.forall_of_defaulted (Selection.leapEndsMinute_of_ofJson? 2) hselections
  simpa only [timestamps, List.forall_mem_flatMap] using hread

end StoredState

namespace StateFile

theorem decode_encode (s : StoredState) : decode (encode s) = .ok s.asRead := by
  have hread : (Json.read (encode s)).bind StoredState.ofJson? = some s.asRead := by
    rw [encode, Json.read_pretty, Option.bind_some, StoredState.ofJson?_toJson]
  rw [decode, hread]

/-- A state that was read from a file stands for itself. -/
theorem asRead_of_get {f : StateFile} {t : FileTree} {s : StoredState} (h : f.get t = .ok s) :
    s.asRead = s := by
  rw [StoredState.asRead_eq_self_iff]
  unfold get at h
  split at h
  · -- The default state has no timestamps.
    obtain rfl := Except.ok.inj h
    simp [StoredState.timestamps]
  · cases h
  · split at h
    · cases h
    · next text _ =>
        unfold decode at h
        split at h
        · next hread =>
            obtain rfl := Except.ok.inj h
            obtain ⟨j, -, hj⟩ := Option.bind_eq_some_iff.mp hread
            exact StoredState.leapEndsMinute_of_ofJson? hj
        · cases h

/-- An update of a state that was read from a file is read back with the timestamps of the update
as they are read. -/
theorem asRead_apply_of_get {f : StateFile} {t : FileTree} {s : StoredState}
    (h : f.get t = .ok s) (patch : StatePatch) : (s.apply patch).asRead = s.apply patch.asRead := by
  rw [StoredState.asRead_apply, asRead_of_get h]

end StateFile

end InstanceConsole

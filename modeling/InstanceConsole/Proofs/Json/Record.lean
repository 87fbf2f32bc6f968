import InstanceConsole.Json.Record
import Mathlib.Data.Option.Basic

/-!
# Records read back

A record that is written with some of its fields, each once and in order, opens to those fields.
-/

set_option autoImplicit false

namespace InstanceConsole.Json

theorem named?_record (members : List (String × Json)) :
    named? (members.map fun m => (some m.1, m.2)) = some members := by
  induction members with
  | nil => rfl
  | cons m members ih =>
      rw [named?, List.map_cons, List.mapM_cons]
      simp only [named?] at ih
      simp [ih]

/-- An object opens to its known members when none of them stands twice. A closed record needs all
names to be known. -/
theorem record?_of_once {names : List String} {members : List (String × Json)} {closed : Bool}
    (honce : ((members.filter fun m => m.1 ∈ names).map (·.1)).Nodup)
    (hclosed : closed = true → ∀ m ∈ members, m.1 ∈ names) :
    record? names closed (.record members) =
      some fun name => (members.filter fun m => m.1 ∈ names).lookup name := by
  have hlength : closed = true →
      (members.filter fun m => m.1 ∈ names).length = members.length := by
    intro h
    rw [List.length_filter_eq_length_iff]
    simpa using hclosed h
  have hrest : (guard (closed = true →
      (members.filter fun m => m.1 ∈ names).length = members.length) : Option Unit) = some () :=
    if_pos hlength
  have honce' : (guard ((members.filter fun m => m.1 ∈ names).map (·.1)).Nodup : Option Unit) =
      some () := if_pos honce
  rw [record, record?, named?_record, Option.bind_eq_bind, Option.bind_some]
  dsimp only
  rw [honce', hrest]
  rfl

/-- An object opens to its members when all their names are known and none stands twice. -/
theorem record?_of_known {names : List String} {members : List (String × Json)}
    (hknown : ∀ m ∈ members, m.1 ∈ names) (hnodup : (members.map (·.1)).Nodup) (closed : Bool) :
    record? names closed (.record members) = some fun name => members.lookup name := by
  have hall : members.filter (fun m => m.1 ∈ names) = members := by
    rw [List.filter_eq_self]
    intro m hm
    simpa using hknown m hm
  rw [record?_of_once (by rwa [hall]) fun _ => hknown, hall]

/-- **An object with names in order opens to its members.** -/
theorem record?_record {names : List String} {members : List (String × Json)}
    (hsub : (members.map (·.1)).Sublist names) (hnodup : names.Nodup) (closed : Bool) :
    record? names closed (.record members) = some fun name => members.lookup name :=
  record?_of_known (fun _ hm => hsub.subset (List.mem_map_of_mem hm)) (hsub.nodup hnodup) closed

theorem eq_record_of_named? {members : List (JsonText × Json)} {named : List (String × Json)}
    (h : named? members = some named) : .obj members = record named := by
  rw [record, Json.obj.injEq]
  induction members generalizing named with
  | nil =>
      obtain rfl := Option.some.inj h
      rfl
  | cons m members ih =>
      rw [named?, List.mapM_cons] at h
      obtain ⟨first, hfirst, h⟩ := Option.bind_eq_some_iff.mp h
      obtain ⟨rest, hrest, h⟩ := Option.bind_eq_some_iff.mp h
      obtain ⟨name, hname, rfl⟩ := Option.map_eq_some_iff.mp hfirst
      obtain rfl := Option.some.inj h
      rw [List.map_cons, ← ih hrest, ← hname]

/-- **The documents that open as a closed record**: the objects in which every name is known and
stands once, and the arrays with no more items than there are names. -/
theorem closedRecord?_eq_some_iff {names : List String} {j : Json} {fields : Fields} :
    closedRecord? names j = some fields ↔
      (∃ members, j = .record members ∧ (∀ m ∈ members, m.1 ∈ names) ∧
        (members.map (·.1)).Nodup ∧ fields = fun name => members.lookup name) ∨
      ∃ items, j = .arr items ∧ items.length ≤ names.length ∧
        fields = fun name => (names.zip items).lookup name := by
  constructor
  · intro h
    cases j with
    | obj members =>
        left
        obtain ⟨named, hnamed, h⟩ := Option.bind_eq_some_iff.mp h
        obtain ⟨⟨⟩, honce, h⟩ := Option.bind_eq_some_iff.mp h
        obtain ⟨⟨⟩, hrest, h⟩ := Option.bind_eq_some_iff.mp h
        have hlength : (named.filter fun m => m.1 ∈ names).length = named.length :=
          (Option.guard_eq_some' _).mp hrest rfl
        have hknown : ∀ m ∈ named, m.1 ∈ names := by
          simpa using List.length_filter_eq_length_iff.mp hlength
        have hall : named.filter (fun m => m.1 ∈ names) = named :=
          List.filter_eq_self.mpr (by simpa using hknown)
        rw [hall] at honce h
        exact ⟨named, eq_record_of_named? hnamed, hknown, (Option.guard_eq_some' _).mp honce,
          (Option.some.inj h).symm⟩
    | arr items =>
        right
        obtain ⟨⟨⟩, hlength, h⟩ := Option.bind_eq_some_iff.mp h
        exact ⟨items, rfl, (Option.guard_eq_some' _).mp hlength, (Option.some.inj h).symm⟩
    | null => cases h
    | bool b => cases h
    | num n => cases h
    | str s => cases h
  · rintro (⟨members, rfl, hknown, hnodup, rfl⟩ | ⟨items, rfl, hlength, rfl⟩)
    · exact record?_of_known hknown hnodup true
    · have hguard : (guard (items.length ≤ names.length) : Option Unit) = some () :=
        if_pos hlength
      rw [closedRecord?, record?, hguard]
      rfl

/-! ## Single members -/

theorem map_optionalMember {α : Type} (name : String) (toJson : α → Json) (o : Option α) :
    ((optionalMember name toJson o).map (·.1)).Sublist [name] := by
  cases o with
  | none => simp [optionalMember]
  | some a => simp [optionalMember]

theorem optionalMember_append_sublist {α : Type} {name : String} {toJson : α → Json}
    {o : Option α} {members : List (String × Json)} {names : List String}
    (h : (members.map (·.1)).Sublist names) :
    ((optionalMember name toJson o ++ members).map (·.1)).Sublist (name :: names) := by
  rw [List.map_append]
  exact (map_optionalMember name toJson o).append h

theorem lookup_optionalMember {α : Type} (name other : String) (toJson : α → Json)
    (o : Option α) :
    (optionalMember name toJson o).lookup other = if other == name then o.map toJson else none := by
  cases o with
  | none => simp [optionalMember]
  | some a =>
      by_cases h : other == name
      · simp [optionalMember, List.lookup_cons, h]
      · simp [optionalMember, List.lookup_cons, h]

/-- A value that was left out when there was none, and is written as something else than `null`
otherwise. What it is read as is a function of the value. -/
theorem Fields.optional_map {α β : Type} {fields : Fields} {name : String} {toJson : α → Json}
    {decode : Json → Option β} {asRead : α → β} {o : Option α} (hfield : fields name = o.map toJson)
    (hdecode : ∀ a, decode (toJson a) = some (asRead a)) (hnull : ∀ a, toJson a ≠ .null) :
    fields.optional name decode = some (o.map asRead) := by
  cases o with
  | none => simp [Fields.optional, hfield]
  | some a =>
      have hnullable : nullable decode (toJson a) = (decode (toJson a)).map some := by
        unfold nullable
        split
        · next h => exact absurd h (hnull a)
        · rfl
      rw [Fields.optional, hfield, Option.map_some]
      simp only [hnullable, hdecode, Option.map_some]

theorem Fields.optional_eq {α : Type} {fields : Fields} {name : String} {toJson : α → Json}
    {decode : Json → Option α} {o : Option α} (hfield : fields name = o.map toJson)
    (hdecode : ∀ a, decode (toJson a) = some a) (hnull : ∀ a, toJson a ≠ .null) :
    fields.optional name decode = some o := by
  have h := @Fields.optional_map α α fields name toJson decode id o hfield hdecode hnull
  rwa [Option.map_id_fun, id] at h

end InstanceConsole.Json

import InstanceConsole.Proofs.Json.Record

/-!
# Fields read back

How each kind of value is read from the field that it was written to: numbers, lists, values that
may be absent, and lists that are left out when they are empty. The last section says which
documents can be kept whole.
-/

set_option autoImplicit false

namespace InstanceConsole.Json

/-! ## Numbers and lists -/

theorem count?_nat (n : UInt64) : (nat n.toNat).count? = some n := by
  have hread : (nat n.toNat).nat? = some n.toNat := by simp [nat, nat?]
  have hlt : n.toNat < UInt64.size := n.toNat_lt
  rw [count?, hread, Option.bind_some, dif_pos hlt]
  exact congrArg some (UInt64.toNat_inj.mp (by simp))

theorem word?_nat (n : UInt32) : (nat n.toNat).word? = some n := by
  have hread : (nat n.toNat).nat? = some n.toNat := by simp [nat, nat?]
  have hlt : n.toNat < UInt32.size := n.toNat_lt
  rw [word?, hread, Option.bind_some, dif_pos hlt]
  exact congrArg some (UInt32.toNat_inj.mp (by simp))

theorem text?_text (s : String) : (text s).text? = some s := rfl

theorem mapM_map {α β γ : Type} {encode : α → β} {decode : β → Option γ} {asRead : α → γ}
    (hdecode : ∀ a, decode (encode a) = some (asRead a)) (as : List α) :
    (as.map encode).mapM decode = some (as.map asRead) := by
  induction as with
  | nil => rfl
  | cons a as ih => rw [List.map_cons, List.mapM_cons, hdecode, ih]; rfl

/-- A list is read as what its items are read as. -/
theorem list?_map {α β : Type} {toJson : α → Json} {decode : Json → Option β} {asRead : α → β}
    (hdecode : ∀ a, decode (toJson a) = some (asRead a)) (as : List α) :
    list? decode (.arr (as.map toJson)) = some (as.map asRead) :=
  mapM_map hdecode as

/-- A list reads back when its items do. -/
theorem list?_self {α : Type} {toJson : α → Json} {decode : Json → Option α}
    (hdecode : ∀ a, decode (toJson a) = some a) (as : List α) :
    list? decode (.arr (as.map toJson)) = some as := by
  have h := @list?_map α α toJson decode id hdecode as
  rwa [List.map_id] at h

/-- What all items that are read have in common, those of a list have. -/
theorem forall_of_list? {α : Type} {P : α → Prop} {decode : Json → Option α} {j : Json}
    {as : List α} (hdecode : ∀ j a, decode j = some a → P a) (h : list? decode j = some as) :
    ∀ a ∈ as, P a := by
  cases j with
  | arr items =>
      rw [list?] at h
      induction items generalizing as with
      | nil =>
          obtain rfl := Option.some.inj h
          simp
      | cons item items ih =>
          rw [List.mapM_cons] at h
          obtain ⟨first, hfirst, h⟩ := Option.bind_eq_some_iff.mp h
          obtain ⟨rest, hrest, h⟩ := Option.bind_eq_some_iff.mp h
          obtain rfl := Option.some.inj h
          exact List.forall_mem_cons.mpr ⟨hdecode item first hfirst, ih hrest⟩
  | null => cases h
  | bool b => cases h
  | num n => cases h
  | str s => cases h
  | obj members => cases h

/-! ## Members that are left out when empty -/

theorem map_listMember {α : Type} (name : String) (toJson : α → Json) (as : List α) :
    ((listMember name toJson as).map (·.1)).Sublist [name] := by
  cases as with
  | nil => simp [listMember]
  | cons a as => simp [listMember]

theorem listMember_append_sublist {α : Type} {name : String} {toJson : α → Json} {as : List α}
    {members : List (String × Json)} {names : List String}
    (h : (members.map (·.1)).Sublist names) :
    ((listMember name toJson as ++ members).map (·.1)).Sublist (name :: names) := by
  rw [List.map_append]
  exact (map_listMember name toJson as).append h

theorem lookup_listMember {α : Type} (name other : String) (toJson : α → Json) (as : List α) :
    (listMember name toJson as).lookup other =
      if other == name ∧ as ≠ [] then some (.arr (as.map toJson)) else none := by
  cases as with
  | nil => simp [listMember]
  | cons a as =>
      by_cases h : other == name
      · simp [listMember, List.lookup_cons, h]
      · simp [listMember, List.lookup_cons, h]

/-! ## Fields -/

theorem openRecord?_record {names : List String} {members : List (String × Json)}
    (hsub : (members.map (·.1)).Sublist names) (hnodup : names.Nodup) :
    openRecord? names (.record members) = some fun name => members.lookup name :=
  record?_record hsub hnodup false

namespace Fields

variable {fields : Fields} {name : String}

theorem required_eq {α : Type} {decode : Json → Option α} {j : Json} {a : α}
    (hfield : fields name = some j) (hdecode : decode j = some a) :
    fields.required name decode = some a := by
  rw [required, hfield, Option.bind_some, hdecode]

theorem defaulted_eq {α : Type} {decode : Json → Option α} {j : Json} {a : α}
    (hfield : fields name = some j) (hdecode : decode j = some a) (default : α) :
    fields.defaulted name default decode = some a := by
  rw [defaulted, hfield]
  exact hdecode

/-- A list that was left out when it was empty. -/
theorem defaulted_list {α : Type} {toJson : α → Json} {decode : Json → Option α} {as : List α}
    (hfield : fields name = if as ≠ [] then some (.arr (as.map toJson)) else none)
    (hdecode : ∀ a, decode (toJson a) = some a) :
    fields.defaulted name [] (list? decode) = some as := by
  by_cases has : as = []
  · rw [if_neg fun h => h has] at hfield
    rw [defaulted, hfield, has]
  · rw [if_pos has] at hfield
    exact defaulted_eq hfield (list?_self hdecode as) []

theorem required_bool (b : Bool) (hfield : fields name = some (.bool b)) :
    fields.required name bool? = some b :=
  required_eq hfield rfl

theorem required_text (s : String) (hfield : fields name = some (.text s)) :
    fields.required name text? = some s :=
  required_eq hfield (text?_text s)

theorem required_count (n : UInt64) (hfield : fields name = some (.nat n.toNat)) :
    fields.required name count? = some n :=
  required_eq hfield (count?_nat n)

theorem defaulted_count (n : UInt64) (hfield : fields name = some (.nat n.toNat)) :
    fields.defaulted name 0 count? = some n :=
  defaulted_eq hfield (count?_nat n) 0

theorem optional_bool (o : Option Bool) (hfield : fields name = o.map .bool) :
    fields.optional name bool? = some o :=
  optional_eq hfield (fun _ => rfl) (by simp)

theorem optional_text (o : Option String) (hfield : fields name = o.map .text) :
    fields.optional name text? = some o :=
  optional_eq hfield (fun _ => rfl) (by simp [text])

theorem optional_word (o : Option UInt32) (hfield : fields name = o.map fun n => .nat n.toNat) :
    fields.optional name word? = some o :=
  optional_eq hfield word?_nat (by simp [nat])

/-! ### What was read -/

section

variable {α : Type} {P : α → Prop} {decode : Json → Option α}
variable (hdecode : ∀ j a, decode j = some a → P a)

include hdecode

theorem of_required {a : α} (h : fields.required name decode = some a) : P a := by
  obtain ⟨j, -, hj⟩ := Option.bind_eq_some_iff.mp h
  exact hdecode j a hj

theorem forall_of_optional {o : Option α} (h : fields.optional name decode = some o) :
    ∀ a ∈ o, P a := by
  intro a ha
  obtain rfl := Option.mem_def.mp ha
  unfold optional at h
  split at h
  · cases h
  · next j _ =>
      unfold nullable at h
      split at h
      · cases h
      · obtain ⟨b, hb, hsome⟩ := Option.map_eq_some_iff.mp h
        obtain rfl := Option.some.inj hsome
        exact hdecode j b hb

theorem forall_of_defaulted {as : List α}
    (h : fields.defaulted name [] (list? decode) = some as) : ∀ a ∈ as, P a := by
  unfold defaulted at h
  split at h
  · obtain rfl := Option.some.inj h
    simp
  · exact forall_of_list? hdecode h

end

/-! ### Fields that are not there -/

/-- The fields without some of them. -/
def except (fields : Fields) (removed : List String) : Fields := fun name =>
  if name ∈ removed then none else fields name

/-- A field that is not there has its default. -/
theorem defaulted_except {α : Type} {default : α} {decode : Json → Option α} {a : α}
    (h : fields.defaulted name default decode = some a) (removed : List String) :
    (fields.except removed).defaulted name default decode =
      some (if name ∈ removed then default else a) := by
  by_cases hname : name ∈ removed
  · rw [defaulted, except, if_pos hname, if_pos hname]
  · rw [defaulted, except, if_neg hname, if_neg hname]
    exact h

theorem optional_except {α : Type} {decode : Json → Option α} {o : Option α}
    (h : fields.optional name decode = some o) (removed : List String) :
    (fields.except removed).optional name decode =
      some (if name ∈ removed then none else o) := by
  by_cases hname : name ∈ removed
  · rw [optional, except, if_pos hname, if_pos hname]
  · rw [optional, except, if_neg hname, if_neg hname]
    exact h

end Fields

/-! ## Documents that can be kept whole -/

theorem isKeepable_record {level : Nat} {members : List (String × Json)}
    (hlevel : level < depthLimit) (h : ∀ m ∈ members, m.2.isKeepable (level + 1) = true) :
    (record members).isKeepable level = true := by
  have hmembers : areMembersKeepable (level + 1) (members.map fun m => (some m.1, m.2)) = true := by
    induction members with
    | nil => rfl
    | cons m members ih =>
        rw [List.map_cons, areMembersKeepable, isMemberKeepable, h m (by simp),
          ih fun n hn => h n (by simp [hn])]
        rfl
  rw [record, isKeepable, hmembers, decide_eq_true hlevel]
  rfl

theorem isKeepable_texts {level : Nat} (hlevel : level < depthLimit) (ss : List String) :
    (arr (ss.map text)).isKeepable level = true := by
  have hitems : areItemsKeepable (level + 1) (ss.map text) = true := by
    induction ss with
    | nil => rfl
    | cons s ss ih =>
        rw [List.map_cons, areItemsKeepable, ih]
        rfl
  rw [isKeepable, hitems, decide_eq_true hlevel]
  rfl

/-- A number of 32 bits is far below the bound. -/
theorem isKeepable_word (level : Nat) (n : UInt32) : (nat n.toNat).isKeepable level = true := by
  have hn : n.toNat < 2 ^ 32 := n.toNat_lt
  have hbound : 2 ^ 32 ≤ overflowBound := by decide +kernel
  simp only [nat, isKeepable, JsonNumber.isFinite, Int.natAbs_natCast, decide_eq_true_eq]
  omega

/-- A member that may be left out is kept whole when its value is. -/
theorem isKeepable_optionalMember {α : Type} {level : Nat} {name : String} {toJson : α → Json}
    {o : Option α} (h : ∀ a, (toJson a).isKeepable level = true) :
    ∀ m ∈ optionalMember name toJson o, m.2.isKeepable level = true := by
  cases o with
  | none => simp [optionalMember]
  | some a => simpa [optionalMember] using h a

theorem isKeepable_listMember {level : Nat} {name : String} (hlevel : level < depthLimit)
    (ss : List String) : ∀ m ∈ listMember name text ss, m.2.isKeepable level = true := by
  cases ss with
  | nil => simp [listMember]
  | cons s ss => simpa [listMember] using isKeepable_texts hlevel (s :: ss)

end InstanceConsole.Json

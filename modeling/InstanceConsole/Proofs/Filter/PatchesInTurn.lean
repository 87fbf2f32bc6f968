import InstanceConsole.Proofs.Filter.Canonical
import Mathlib.Data.List.Induction

/-!
# Patches in turn

Patches that are merged one after the other come to a single one, in which every field has its
value from the last patch that touches it, `FilterPatch.combined`. The filter is normalized after
each of them, so what is set to nothing is erased before the next patch comes. It makes no
difference whether that happens every time or once in the end, `Filter.merge_merge`.
-/

set_option autoImplicit false

namespace InstanceConsole

/-! ## Changes of one value -/

namespace Change

variable {α : Type}

/-- Whether the value may not stay as it is. -/
def touches : Change α → Bool
  | .keep => false
  | .clear => true
  | .set _ => true

/-- A change and then another, as one change. -/
def followedBy : Change α → Change α → Change α
  | first, .keep => first
  | _, .clear => .clear
  | _, .set value => .set value

theorem eq_keep_of_not_touches {c : Change α} (h : c.touches = false) : c = .keep := by
  cases c with
  | keep => rfl
  | clear => cases h
  | set value => cases h

theorem apply_followedBy (c d : Change α) (current : Option α) :
    (c.followedBy d).apply current = d.apply (c.apply current) := by
  cases d <;> rfl

theorem keep_followedBy (d : Change α) : keep.followedBy d = d := by
  cases d <;> rfl

theorem followedBy_keep (c : Change α) : c.followedBy .keep = c := rfl

theorem followedBy_self (c : Change α) : c.followedBy c = c := by
  cases c <;> rfl

/-- The later change counts, when it touches the value. -/
theorem followedBy_eq_ite (c d : Change α) :
    c.followedBy d = if d.touches then d else c := by
  cases d <;> rfl

/-- When only one of two changes touches the value, they may come in either order. -/
theorem followedBy_comm {c d : Change α} (h : c.touches = true → d.touches = false) :
    c.followedBy d = d.followedBy c := by
  cases hc : c.touches with
  | false => rw [eq_keep_of_not_touches hc, keep_followedBy, followedBy_keep]
  | true => rw [eq_keep_of_not_touches (h hc), keep_followedBy, followedBy_keep]

/-- What is brought to a normal form in the end need not be brought there before. -/
theorem normal_apply_normal (normal : Option α → Option α)
    (h : ∀ o, normal (normal o) = normal o) (d : Change α) (current : Option α) :
    normal (d.apply (normal current)) = normal (d.apply current) := by
  cases d with
  | keep => exact h current
  | clear => rfl
  | set value => rfl

end Change

/-! ## Fields -/

/-- The fields of a filter. -/
inductive FilterField
  | active
  | incidents
  | completed
  | canceled
  | ids
  | errorMessage
  | startDate
  | endDate
  | activityId
  | workflow
  | version
  | variableFilter
  deriving DecidableEq, Repr

namespace FilterPatch

/-- Whether a patch sets or clears a field. -/
def touches (p : FilterPatch) : FilterField → Bool
  | .active => p.active.isSome
  | .incidents => p.incidents.isSome
  | .completed => p.completed.isSome
  | .canceled => p.canceled.isSome
  | .ids => p.ids.touches
  | .errorMessage => p.errorMessage.touches
  | .startDate => p.startDate.touches
  | .endDate => p.endDate.touches
  | .activityId => p.activityId.touches
  | .workflow => p.workflow.touches
  | .version => p.version.touches
  | .variableFilter => p.variableFilter.touches

/-- No field is touched by both patches. -/
def Disjoint (p q : FilterPatch) : Prop :=
  ∀ field, p.touches field = true → q.touches field = false

/-- The last patch of a list that touches a field, or the one that changes nothing. -/
def lastTouching (field : FilterField) (ps : List FilterPatch) : FilterPatch :=
  ((ps.filter (·.touches field)).getLast?).getD {}

/-- The patch that has each field from the last patch of a list that touches it. -/
def combined (ps : List FilterPatch) : FilterPatch where
  active := (lastTouching .active ps).active
  incidents := (lastTouching .incidents ps).incidents
  completed := (lastTouching .completed ps).completed
  canceled := (lastTouching .canceled ps).canceled
  ids := (lastTouching .ids ps).ids
  errorMessage := (lastTouching .errorMessage ps).errorMessage
  startDate := (lastTouching .startDate ps).startDate
  endDate := (lastTouching .endDate ps).endDate
  activityId := (lastTouching .activityId ps).activityId
  workflow := (lastTouching .workflow ps).workflow
  version := (lastTouching .version ps).version
  variableFilter := (lastTouching .variableFilter ps).variableFilter

/-- A patch and then another, as one patch. -/
def followedBy (p q : FilterPatch) : FilterPatch where
  active := q.active <|> p.active
  incidents := q.incidents <|> p.incidents
  completed := q.completed <|> p.completed
  canceled := q.canceled <|> p.canceled
  ids := p.ids.followedBy q.ids
  errorMessage := p.errorMessage.followedBy q.errorMessage
  startDate := p.startDate.followedBy q.startDate
  endDate := p.endDate.followedBy q.endDate
  activityId := p.activityId.followedBy q.activityId
  workflow := p.workflow.followedBy q.workflow
  version := p.version.followedBy q.version
  variableFilter := p.variableFilter.followedBy q.variableFilter

/-! ## Two patches -/

theorem empty_followedBy (q : FilterPatch) : followedBy {} q = q := by
  simp only [followedBy, Change.keep_followedBy, Option.orElse_eq_orElse, Option.orElse_eq_or,
    Option.or_none]

theorem followedBy_self (p : FilterPatch) : p.followedBy p = p := by
  simp only [followedBy, Change.followedBy_self, Option.orElse_eq_orElse, Option.orElse_eq_or,
    Option.or_self]

/-- When only one of two patches sets a flag, they may come in either order. -/
theorem flag_orElse_comm {a b : Option Bool} (h : a.isSome = true → b.isSome = false) :
    (b <|> a) = (a <|> b) := by
  cases a with
  | none => cases b <;> rfl
  | some v =>
      have hb : b = none := Option.not_isSome_iff_eq_none.mp (by simp [h rfl])
      rw [hb]
      rfl

theorem followedBy_comm {p q : FilterPatch} (h : p.Disjoint q) :
    p.followedBy q = q.followedBy p := by
  unfold followedBy
  rw [mk.injEq]
  exact ⟨flag_orElse_comm (h .active), flag_orElse_comm (h .incidents),
    flag_orElse_comm (h .completed), flag_orElse_comm (h .canceled),
    Change.followedBy_comm (h .ids), Change.followedBy_comm (h .errorMessage),
    Change.followedBy_comm (h .startDate), Change.followedBy_comm (h .endDate),
    Change.followedBy_comm (h .activityId), Change.followedBy_comm (h .workflow),
    Change.followedBy_comm (h .version), Change.followedBy_comm (h .variableFilter)⟩

/-! ## Lists of patches -/

theorem lastTouching_append_singleton (field : FilterField) (ps : List FilterPatch)
    (p : FilterPatch) :
    lastTouching field (ps ++ [p]) = if p.touches field then p else lastTouching field ps := by
  unfold lastTouching
  rw [List.filter_append]
  cases h : p.touches field <;> simp [h]

theorem flag_lastTouching (field : FilterField) (flag : FilterPatch → Option Bool)
    (hflag : ∀ p, p.touches field = (flag p).isSome) (ps : List FilterPatch) (p : FilterPatch) :
    flag (lastTouching field (ps ++ [p])) = (flag p <|> flag (lastTouching field ps)) := by
  rw [lastTouching_append_singleton, hflag]
  cases h : flag p with
  | none => rfl
  | some value => exact h

theorem change_lastTouching {α : Type} (field : FilterField) (change : FilterPatch → Change α)
    (hchange : ∀ p, p.touches field = (change p).touches) (ps : List FilterPatch)
    (p : FilterPatch) :
    change (lastTouching field (ps ++ [p])) =
      (change (lastTouching field ps)).followedBy (change p) := by
  rw [lastTouching_append_singleton, hchange, Change.followedBy_eq_ite, apply_ite change]

theorem combined_append_singleton (ps : List FilterPatch) (p : FilterPatch) :
    combined (ps ++ [p]) = (combined ps).followedBy p := by
  unfold combined followedBy
  rw [mk.injEq]
  exact ⟨flag_lastTouching .active active (fun _ => rfl) ps p,
    flag_lastTouching .incidents incidents (fun _ => rfl) ps p,
    flag_lastTouching .completed completed (fun _ => rfl) ps p,
    flag_lastTouching .canceled canceled (fun _ => rfl) ps p,
    change_lastTouching .ids ids (fun _ => rfl) ps p,
    change_lastTouching .errorMessage errorMessage (fun _ => rfl) ps p,
    change_lastTouching .startDate startDate (fun _ => rfl) ps p,
    change_lastTouching .endDate endDate (fun _ => rfl) ps p,
    change_lastTouching .activityId activityId (fun _ => rfl) ps p,
    change_lastTouching .workflow workflow (fun _ => rfl) ps p,
    change_lastTouching .version version (fun _ => rfl) ps p,
    change_lastTouching .variableFilter variableFilter (fun _ => rfl) ps p⟩

end FilterPatch

/-! ## Merging -/

namespace Filter

theorem bind_unlessBlank_apply (d : Change String) (o : Option String) :
    (d.apply (o.bind unlessBlank)).bind unlessBlank = (d.apply o).bind unlessBlank :=
  Change.normal_apply_normal (·.bind unlessBlank) bind_unlessBlank_bind_unlessBlank d o

theorem filter_apply {α : Type} (p : α → Bool) (d : Change α) (o : Option α) :
    (d.apply (o.filter p)).filter p = (d.apply o).filter p :=
  Change.normal_apply_normal (·.filter p) (filter_filter_self p) d o

theorem merge_empty (f : Filter) : f.merge {} = f.normalized := rfl

/-- Normalizing between two patches makes no difference. -/
theorem merge_merge (f : Filter) (p q : FilterPatch) :
    (f.merge p).merge q = f.merge (p.followedBy q) := by
  simp only [merge, normalized, FilterPatch.followedBy, Change.apply_followedBy,
    bind_unlessBlank_apply, filter_apply, Option.orElse_eq_orElse, Option.orElse_eq_or,
    Option.or_assoc]

theorem merge_normalized (f : Filter) (p : FilterPatch) : f.normalized.merge p = f.merge p := by
  rw [← merge_empty, merge_merge, FilterPatch.empty_followedBy]

theorem normalized_merge (f : Filter) (p : FilterPatch) : (f.merge p).normalized = f.merge p :=
  normalized_normalized _

/-- Without any patch the filter stays, while the combined patch still normalizes it. -/
theorem normalized_foldl_merge (f : Filter) (ps : List FilterPatch) :
    (ps.foldl merge f).normalized = f.merge (.combined ps) := by
  induction ps using List.reverseRecOn with
  | nil => rfl
  | append_singleton ps p ih =>
      rw [List.foldl_append, List.foldl_cons, List.foldl_nil, normalized_merge,
        ← merge_normalized, ih, merge_merge, FilterPatch.combined_append_singleton]

-- The blank workflow came last, so the earlier one does not come back.
example : [{ workflow := .set "a" }, { workflow := .set " " }, { canceled := some true }].foldl
    merge {} = { canceled := some true } := by decide

theorem normalized_foldl_merge_cons (f : Filter) (p : FilterPatch) (ps : List FilterPatch) :
    ((p :: ps).foldl merge f).normalized = (p :: ps).foldl merge f := by
  induction ps using List.reverseRecOn with
  | nil => exact normalized_merge f p
  | append_singleton ps last ih =>
      rw [← List.cons_append, List.foldl_append]
      exact normalized_merge _ last

/-- **Patches that are merged in turn.** One patch or more come to a single merge of the combined
patch, in which each field is that of the last patch that touches it, and the filter in the end is
normal. So a patch may as well be merged twice in a row, patches that touch different fields may
change places, and of the first filter only its normal form counts. -/
theorem merges_combine (f : Filter) (p : FilterPatch) (ps : List FilterPatch) :
    (p :: ps).foldl merge f = f.merge (.combined (p :: ps)) ∧
    ((p :: ps).foldl merge f).normalized = (p :: ps).foldl merge f ∧
    (f.merge p).merge p = f.merge p ∧
    (∀ q : FilterPatch, p.Disjoint q → (f.merge p).merge q = (f.merge q).merge p) ∧
    (p :: ps).foldl merge f.normalized = (p :: ps).foldl merge f := by
  have hnormal := normalized_foldl_merge_cons f p ps
  refine ⟨?_, hnormal, ?_, ?_, ?_⟩
  · rw [← normalized_foldl_merge, hnormal]
  · rw [merge_merge, FilterPatch.followedBy_self]
  · intro q hdisjoint
    rw [merge_merge, merge_merge, FilterPatch.followedBy_comm hdisjoint]
  · rw [List.foldl_cons, List.foldl_cons, merge_normalized]

end Filter

end InstanceConsole

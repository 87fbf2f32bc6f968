import InstanceConsole.Selection.List

/-!
# What the list of selections does

An operation on one selection finds the first selection with the id, so it splits the list there.
Each operation has one lemma that says what comes out of it, and so have all of them together,
`outcome_edit`.
-/

set_option autoImplicit false

namespace InstanceConsole

@[simp] theorem Selection.selectionId_merged (s : Selection) (payload : SelectionPayload)
    (details : InstancesDetails) : (s.merged payload details).selectionId = s.selectionId := rfl

namespace SelectionList

variable {l next : SelectionList} {id other : UInt64} {s : Selection}
variable {payload : SelectionPayload} {details : InstancesDetails}

/-! ## Finding a selection -/

/-- A selection that is found stands behind selections with other ids. -/
theorem split_of_get? (h : l.get? id = some s) :
    ∃ before after, l.selections = before ++ s :: after ∧
      (∀ b ∈ before, b.selectionId ≠ id) ∧ s.selectionId = id ∧ l.position id = before.length := by
  obtain ⟨hid, before, after, hsplit, hbefore⟩ := List.find?_eq_some_iff_append.mp h
  have hother : ∀ b ∈ before, (b.selectionId == id) = false := by
    intro b hb
    simpa using hbefore b hb
  refine ⟨before, after, hsplit, fun b hb => by simpa using hother b hb, by simpa using hid, ?_⟩
  rw [position, hsplit, List.findIdx_append, List.findIdx_eq_length_of_false hother,
    if_neg (Nat.lt_irrefl _), List.findIdx_cons, hid]
  simp

theorem selectionId_of_get? (h : l.get? id = some s) : s.selectionId = id := by
  obtain ⟨before, after, -, -, hid, -⟩ := split_of_get? h
  exact hid

/-! ## The operations -/

theorem withMerged_eq_ok (h : l.withMerged id payload details = .ok next) :
    ∃ before previous after, l.get? id = some previous ∧
      l.selections = before ++ previous :: after ∧ (∀ b ∈ before, b.selectionId ≠ id) ∧
      next =
        { l with
          selections := before ++ previous.merged payload details :: after
          instancesInSelectionsCount :=
            Counter.add (Counter.sub l.instancesInSelectionsCount previous.totalCount)
              details.totalCount } := by
  unfold withMerged at h
  cases hget : l.get? id with
  | none =>
      rw [hget] at h
      cases h
  | some previous =>
      rw [hget] at h
      obtain ⟨before, after, hsplit, hbefore, -, hposition⟩ := split_of_get? hget
      refine ⟨before, previous, after, rfl, hsplit, hbefore, ?_⟩
      rw [← Except.ok.inj h, hposition, hsplit, List.set_append_right _ _ (Nat.le_refl _),
        Nat.sub_self, List.set_cons_zero]

theorem without_eq_ok (h : l.without id = .ok next) :
    ∃ before removed after, l.get? id = some removed ∧
      l.selections = before ++ removed :: after ∧ (∀ b ∈ before, b.selectionId ≠ id) ∧
      next =
        { l with
          selections := before ++ after
          selectionCount := Counter.sub l.selectionCount 1
          instancesInSelectionsCount :=
            Counter.sub l.instancesInSelectionsCount removed.totalCount } := by
  unfold without at h
  cases hget : l.get? id with
  | none =>
      rw [hget] at h
      cases h
  | some removed =>
      rw [hget] at h
      obtain ⟨before, after, hsplit, hbefore, -, hposition⟩ := split_of_get? hget
      refine ⟨before, removed, after, rfl, hsplit, hbefore, ?_⟩
      rw [← Except.ok.inj h, hposition, hsplit, List.eraseIdx_append_of_length_le (Nat.le_refl _),
        Nat.sub_self, List.eraseIdx_cons_zero]

/-! ## Edits -/

/-- What may be done to a list. -/
inductive Edit
  | new (payload : SelectionPayload) (details : InstancesDetails)
  | merge (id : UInt64) (payload : SelectionPayload) (details : InstancesDetails)
  | remove (id : UInt64)

/-- One edit; one that fails leaves the list as it was. -/
def edit (l : SelectionList) : Edit → SelectionList
  | .new payload details => l.withNew payload details
  | .merge id payload details => (l.withMerged id payload details).toOption.getD l
  | .remove id => (l.without id).toOption.getD l

def edits (l : SelectionList) (es : List Edit) : SelectionList := es.foldl edit l

/-- What an edit can come to. -/
inductive EditOutcome (l : SelectionList) : SelectionList → Prop
  /-- No selection has the id. -/
  | failed : EditOutcome l l
  /-- A selection is put in front. -/
  | added (payload : SelectionPayload) (details : InstancesDetails) :
      EditOutcome l (l.withNew payload details)
  /-- A selection is replaced in its place. -/
  | merged (before : List Selection) (previous : Selection) (after : List Selection)
      (payload : SelectionPayload) (details : InstancesDetails)
      (hsplit : l.selections = before ++ previous :: after) :
      EditOutcome l
        { l with
          selections := before ++ previous.merged payload details :: after
          instancesInSelectionsCount :=
            Counter.add (Counter.sub l.instancesInSelectionsCount previous.totalCount)
              details.totalCount }
  /-- A selection is taken out. -/
  | removed (before : List Selection) (removed : Selection) (after : List Selection)
      (hsplit : l.selections = before ++ removed :: after) :
      EditOutcome l
        { l with
          selections := before ++ after
          selectionCount := Counter.sub l.selectionCount 1
          instancesInSelectionsCount :=
            Counter.sub l.instancesInSelectionsCount removed.totalCount }

theorem outcome_edit (l : SelectionList) (e : Edit) : l.EditOutcome (l.edit e) := by
  cases e with
  | new payload details => exact .added payload details
  | merge id payload details =>
      simp only [edit]
      cases hnext : l.withMerged id payload details with
      | error error => exact .failed
      | ok next =>
          obtain ⟨before, previous, after, -, hsplit, -, rfl⟩ := withMerged_eq_ok hnext
          exact .merged before previous after payload details hsplit
  | remove id =>
      simp only [edit]
      cases hnext : l.without id with
      | error error => exact .failed
      | ok next =>
          obtain ⟨before, removed, after, -, hsplit, -, rfl⟩ := without_eq_ok hnext
          exact .removed before removed after hsplit

/-! ## Finding a selection afterwards -/

theorem get?_withMerged_self (h : l.withMerged id payload details = .ok next) :
    ∃ previous, l.get? id = some previous ∧
      next.get? id = some (previous.merged payload details) := by
  obtain ⟨before, previous, after, hget, -, hbefore, rfl⟩ := withMerged_eq_ok h
  have hid : previous.selectionId = id := selectionId_of_get? hget
  have hnone : before.find? (·.selectionId == id) = none :=
    List.find?_eq_none.mpr fun b hb => by simpa using hbefore b hb
  refine ⟨previous, hget, ?_⟩
  simp only [get?, List.find?_append, hnone, Option.none_or]
  exact List.find?_cons_of_pos (by simpa using hid)

theorem get?_withMerged_of_ne (h : l.withMerged id payload details = .ok next)
    (hne : other ≠ id) : next.get? other = l.get? other := by
  obtain ⟨before, previous, after, hget, hsplit, -, rfl⟩ := withMerged_eq_ok h
  have hprevious : previous.selectionId ≠ other := by
    intro heq
    exact hne (heq.symm.trans (selectionId_of_get? hget))
  simp only [get?, hsplit, List.find?_append]
  rw [List.find?_cons_of_neg (by simpa using hprevious),
    List.find?_cons_of_neg (by simpa using hprevious)]

theorem get?_without_of_ne (h : l.without id = .ok next) (hne : other ≠ id) :
    next.get? other = l.get? other := by
  obtain ⟨before, removed, after, hget, hsplit, -, rfl⟩ := without_eq_ok h
  have hremoved : removed.selectionId ≠ other := by
    intro heq
    exact hne (heq.symm.trans (selectionId_of_get? hget))
  simp only [get?, hsplit, List.find?_append]
  rw [List.find?_cons_of_neg (by simpa using hremoved)]

/-- Whether an edit leaves alone what is found under an id. -/
def Edit.Spares (k : UInt64) : Edit → Prop
  | .new _ _ => False
  | .merge id _ _ => id ≠ k
  | .remove id => id ≠ k

theorem get?_edit_of_spares {e : Edit} (h : e.Spares other) :
    (l.edit e).get? other = l.get? other := by
  cases e with
  | new payload details => exact absurd h id
  | merge id payload details =>
      simp only [edit]
      cases hnext : l.withMerged id payload details with
      | error error => rfl
      | ok next => exact get?_withMerged_of_ne hnext (Ne.symm h)
  | remove id =>
      simp only [edit]
      cases hnext : l.without id with
      | error error => rfl
      | ok next => exact get?_without_of_ne hnext (Ne.symm h)

theorem get?_edits_of_spares {es : List Edit} (h : ∀ e ∈ es, e.Spares other) :
    (l.edits es).get? other = l.get? other := by
  induction es generalizing l with
  | nil => rfl
  | cons e es ih =>
      have htail : ((l.edit e).edits es).get? other = (l.edit e).get? other :=
        ih fun e he => h e (by simp [he])
      exact htail.trans (get?_edit_of_spares (h e (by simp)))

theorem get?_edit_merge (h : l.get? id = some s) (payload : SelectionPayload)
    (details : InstancesDetails) :
    (l.edit (.merge id payload details)).get? id = some (s.merged payload details) := by
  simp only [edit]
  cases hnext : l.withMerged id payload details with
  | error error =>
      unfold withMerged at hnext
      rw [h] at hnext
      cases hnext
  | ok next =>
      obtain ⟨previous, hprevious, hget⟩ := get?_withMerged_self hnext
      obtain rfl := Option.some.inj (hprevious.symm.trans h)
      exact hget

/-! ## The selections afterwards -/

/-- An extension that finds its selection replaces it in its place. -/
theorem selections_edit_merge (h : l.get? id = some s) (payload : SelectionPayload)
    (details : InstancesDetails) :
    ∃ before after, l.selections = before ++ s :: after ∧ (∀ b ∈ before, b.selectionId ≠ id) ∧
      (l.edit (.merge id payload details)).selections =
        before ++ s.merged payload details :: after := by
  simp only [edit]
  cases hnext : l.withMerged id payload details with
  | error error =>
      unfold withMerged at hnext
      rw [h] at hnext
      cases hnext
  | ok next =>
      obtain ⟨before, previous, after, hprevious, hsplit, hbefore, rfl⟩ := withMerged_eq_ok hnext
      obtain rfl := Option.some.inj (hprevious.symm.trans h)
      exact ⟨before, after, hsplit, hbefore, rfl⟩

/-- A selection has the queries of a payload, and the count and the instances of an answer. -/
structure Carries (s : Selection) (payload : SelectionPayload) (details : InstancesDetails) :
    Prop where
  queries : s.queries = payload.queries
  totalCount : s.totalCount = details.totalCount
  workflowInstances : s.workflowInstances = details.workflowInstances

/-- A selection in the list after an edit was there before, or carries what the edit brought. -/
theorem mem_edit {e : Edit} (h : s ∈ (l.edit e).selections) :
    s ∈ l.selections ∨ ∃ payload details,
      (e = .new payload details ∨ e = .merge s.selectionId payload details) ∧
        Carries s payload details := by
  cases e with
  | new payload details =>
      rcases List.mem_cons.mp h with rfl | h
      · exact .inr ⟨payload, details, .inl rfl, rfl, rfl, rfl⟩
      · exact .inl h
  | merge id payload details =>
      simp only [edit] at h
      cases hnext : l.withMerged id payload details with
      | error error =>
          rw [hnext] at h
          exact .inl h
      | ok next =>
          obtain ⟨before, previous, after, hget, hsplit, -, rfl⟩ := withMerged_eq_ok hnext
          rw [hnext] at h
          rw [hsplit]
          rcases List.mem_append.mp h with h | h
          · exact .inl (List.mem_append_left _ h)
          · rcases List.mem_cons.mp h with rfl | h
            · refine .inr ⟨payload, details, .inr ?_, rfl, rfl, rfl⟩
              rw [Selection.selectionId_merged, selectionId_of_get? hget]
            · exact .inl (by simp [h])
  | remove id =>
      simp only [edit] at h
      cases hnext : l.without id with
      | error error =>
          rw [hnext] at h
          exact .inl h
      | ok next =>
          obtain ⟨before, removed, after, -, hsplit, -, rfl⟩ := without_eq_ok hnext
          rw [hnext] at h
          rw [hsplit]
          rcases List.mem_append.mp h with h | h
          · exact .inl (List.mem_append_left _ h)
          · exact .inl (by simp [h])

end SelectionList

end InstanceConsole

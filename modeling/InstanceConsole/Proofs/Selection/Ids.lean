import InstanceConsole.Proofs.Selection.Counts

/-!
# Ids of selections

A list that started empty numbers its selections in the order of their creation, newest first, and
the index says how many have been created. No edit renames a selection, and removing one takes no
number back. So an id that has been given out, and is in the list no more, never comes back.
-/

set_option autoImplicit false

namespace InstanceConsole

namespace SelectionList

/-! ## Creations -/

/-- Whether an edit creates a selection. -/
def Edit.creates : Edit → Bool
  | .new _ _ => true
  | _ => false

theorem Edit.eq_new_of_creates {e : Edit} (h : e.creates = true) :
    ∃ payload details, e = .new payload details := by
  cases e with
  | new payload details => exact ⟨payload, details, rfl⟩
  | merge id payload details => cases h
  | remove id => cases h

/-- How many selections some edits create. -/
def creations (es : List Edit) : Nat := es.countP Edit.creates

theorem creations_cons (e : Edit) (es : List Edit) :
    creations (e :: es) = creations [e] + creations es := by
  rw [← List.singleton_append, creations, List.countP_append]
  rfl

theorem creations_append (es fs : List Edit) :
    creations (es ++ fs) = creations es + creations fs :=
  List.countP_append

/-! ## Numbered selections -/

def ids (selections : List Selection) : List UInt64 := selections.map (·.selectionId)

/-- Selections stand newest first, and the index says how many have been created. -/
structure Numbered (selections : List Selection) (index : UInt64) (created : Nat) : Prop where
  toNat_index : index.toNat = created
  le_index : ∀ id ∈ ids selections, id ≤ index
  newestFirst : (ids selections).Pairwise (· > ·)

variable {l : SelectionList} {created : Nat} {id : UInt64}

theorem mem_ids_of_get? {s : Selection} (h : l.get? id = some s) : id ∈ ids l.selections := by
  rw [← selectionId_of_get? h]
  exact List.mem_map_of_mem (List.mem_of_find?_eq_some h)

theorem get?_eq_none_iff : l.get? id = none ↔ id ∉ ids l.selections := by
  simp [get?, ids, List.find?_eq_none]

theorem mem_ids_iff : id ∈ ids l.selections ↔ l.get? id ≠ none := by
  rw [ne_eq, get?_eq_none_iff, Decidable.not_not]

theorem ids_withMerged {next : SelectionList} {payload : SelectionPayload}
    {details : InstancesDetails} (h : l.withMerged id payload details = .ok next) :
    ids next.selections = ids l.selections := by
  obtain ⟨before, previous, after, -, hsplit, -, rfl⟩ := withMerged_eq_ok h
  rw [hsplit]
  simp [ids]

/-- Only selections with the id itself are taken out. -/
theorem mem_ids_without {next : SelectionList} {other : UInt64} (h : l.without id = .ok next)
    (hne : other ≠ id) : other ∈ ids next.selections ↔ other ∈ ids l.selections := by
  rw [mem_ids_iff, mem_ids_iff, get?_without_of_ne h hne]

theorem Numbered.toNat_le {selections : List Selection} {index : UInt64}
    (h : Numbered selections index created) (hid : id ∈ ids selections) : id.toNat ≤ created := by
  have hle := h.le_index id hid
  rw [UInt64.le_iff_toNat_le, h.toNat_index] at hle
  exact hle

/-- Restoring the list finds nothing to put right in the index. -/
theorem Numbered.rollingSelectionIndex_restore {selections : List Selection} {index : UInt64}
    (h : Numbered selections index created) :
    (restore selections index).rollingSelectionIndex = index :=
  highestId_eq_self fun _ hs => h.le_index _ (List.mem_map_of_mem hs)

/-! ## One edit -/

/-- The id of the next selection. -/
theorem toNat_next (h : Numbered l.selections l.rollingSelectionIndex created)
    (hfew : created + 1 < UInt64.size) :
    (Counter.add l.rollingSelectionIndex 1).toNat = created + 1 := by
  have hone : (1 : UInt64).toNat = 1 := rfl
  rw [Counter.toNat_add, h.toNat_index, hone]
  omega

theorem numbered_withNew (h : Numbered l.selections l.rollingSelectionIndex created)
    (hfew : created + 1 < UInt64.size) (payload : SelectionPayload) (details : InstancesDetails) :
    Numbered (l.withNew payload details).selections
      (l.withNew payload details).rollingSelectionIndex (created + 1) := by
  have hnext := toNat_next h hfew
  have hlt : ∀ id ∈ ids l.selections, id < Counter.add l.rollingSelectionIndex 1 := by
    intro id hid
    have hle := h.toNat_le hid
    rw [UInt64.lt_iff_toNat_lt]
    omega
  refine ⟨hnext, ?_, List.pairwise_cons.mpr ⟨hlt, h.newestFirst⟩⟩
  intro id hid
  rcases List.mem_cons.mp hid with rfl | hid
  · exact UInt64.le_refl _
  · exact UInt64.le_of_lt (hlt id hid)

/-- An edit that creates no selection gives out no id, and leaves the index. -/
theorem ids_edit_of_not_creates {e : Edit} (h : e.creates = false) :
    (ids (l.edit e).selections).Sublist (ids l.selections) ∧
      (l.edit e).rollingSelectionIndex = l.rollingSelectionIndex := by
  cases e with
  | new payload details => cases h
  | merge id payload details =>
      simp only [edit]
      cases hnext : l.withMerged id payload details with
      | error error => exact ⟨List.Sublist.refl _, rfl⟩
      | ok next =>
          have hindex : next.rollingSelectionIndex = l.rollingSelectionIndex := by
            obtain ⟨before, previous, after, -, -, -, rfl⟩ := withMerged_eq_ok hnext
            rfl
          have hids := ids_withMerged hnext
          exact ⟨hids ▸ List.Sublist.refl _, hindex⟩
  | remove id =>
      simp only [edit]
      cases hnext : l.without id with
      | error error => exact ⟨List.Sublist.refl _, rfl⟩
      | ok next =>
          obtain ⟨before, removed, after, -, hsplit, -, rfl⟩ := without_eq_ok hnext
          refine ⟨?_, rfl⟩
          rw [hsplit]
          exact (List.sublist_append_right [removed] after).append_left before |>.map _

theorem numbered_edit (h : Numbered l.selections l.rollingSelectionIndex created) (e : Edit)
    (hfew : created + creations [e] < UInt64.size) :
    Numbered (l.edit e).selections (l.edit e).rollingSelectionIndex
      (created + creations [e]) := by
  cases hcreates : e.creates with
  | true =>
      obtain ⟨payload, details, rfl⟩ := Edit.eq_new_of_creates hcreates
      exact numbered_withNew h hfew payload details
  | false =>
      obtain ⟨hids, hindex⟩ := ids_edit_of_not_creates (l := l) hcreates
      have hnone : creations [e] = 0 := by simp [creations, hcreates]
      rw [hnone, hindex]
      exact ⟨h.toNat_index, fun id hid => h.le_index id (hids.subset hid),
        h.newestFirst.sublist hids⟩

/-- A number that has been given out, and is not in the list, does not come back. -/
theorem notMem_ids_edit (h : Numbered l.selections l.rollingSelectionIndex created) {e : Edit}
    (hfew : created + creations [e] < UInt64.size) (hid : id.toNat ≤ created)
    (hgone : id ∉ ids l.selections) : id ∉ ids (l.edit e).selections := by
  cases hcreates : e.creates with
  | true =>
      obtain ⟨payload, details, rfl⟩ := Edit.eq_new_of_creates hcreates
      have hnext := toNat_next h hfew
      intro hmem
      rcases List.mem_cons.mp hmem with hnew | hmem
      · rw [hnew] at hid
        have hold : (Counter.add l.rollingSelectionIndex 1).toNat ≤ created := hid
        omega
      · exact hgone hmem
  | false => exact fun hmem => hgone ((ids_edit_of_not_creates hcreates).1.subset hmem)

/-! ## Any number of edits -/

theorem numbered_edits (h : Numbered l.selections l.rollingSelectionIndex created)
    (es : List Edit) (hfew : created + creations es < UInt64.size) :
    Numbered (l.edits es).selections (l.edits es).rollingSelectionIndex
      (created + creations es) := by
  induction es generalizing l created with
  | nil => exact h
  | cons e es ih =>
      rw [creations_cons] at hfew ⊢
      rw [← Nat.add_assoc] at hfew ⊢
      exact ih (numbered_edit h e (by omega)) hfew

theorem notMem_ids_edits (h : Numbered l.selections l.rollingSelectionIndex created)
    {es : List Edit} (hfew : created + creations es < UInt64.size) (hid : id.toNat ≤ created)
    (hgone : id ∉ ids l.selections) : id ∉ ids (l.edits es).selections := by
  induction es generalizing l created with
  | nil => exact hgone
  | cons e es ih =>
      rw [creations_cons, ← Nat.add_assoc] at hfew
      have hfirst : created + creations [e] < UInt64.size := by omega
      exact ih (numbered_edit h e hfirst) hfew (by omega) (notMem_ids_edit h hfirst hid hgone)

end SelectionList

end InstanceConsole

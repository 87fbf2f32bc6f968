import InstanceConsole.Proofs.Selection.List

/-!
# The counts of a list of selections

A list keeps how many selections it has and how many instances these hold together. Restoring a
list takes both numbers from the selections; the other operations move them along. A counter stops
at its greatest value, so it forgets by how much a number exceeds that. As long as such a number
does not get smaller again the counts stay right, and not any longer.
-/

set_option autoImplicit false

namespace InstanceConsole

/-! ## Counters -/

namespace Counter

theorem toNat_greatest : greatest.toNat = UInt64.size - 1 := rfl

/-- A number that exceeds all counts gets smaller. -/
def Slips (before after : Nat) : Prop := greatest.toNat < before ∧ after < before

theorem not_slips_of_le {before after : Nat} (h : before ≤ after) : ¬ Slips before after :=
  fun hslips => Nat.not_lt.mpr h hslips.2

/-- A counter is taken down and up with the number that it counts. It shows the number afterwards
exactly when the number does not slip. -/
theorem add_sub_ofNat_iff {n : Nat} {less more : UInt64} (hless : less.toNat ≤ n) :
    add (sub (ofNat n) less) more = ofNat (n - less.toNat + more.toNat) ↔
      ¬ Slips n (n - less.toNat + more.toNat) := by
  have hl := less.toNat_lt
  have hm := more.toNat_lt
  -- All four numbers as naturals, each cut off at the greatest count.
  rw [Slips, ← UInt64.toNat_inj, toNat_add, toNat_sub, toNat_ofNat, toNat_ofNat, toNat_greatest]
  simp only [UInt64.size]
  omega

theorem add_ofNat (n : Nat) (more : UInt64) : add (ofNat n) more = ofNat (n + more.toNat) := by
  rw [← UInt64.toNat_inj, toNat_add, toNat_ofNat, toNat_ofNat]
  simp only [UInt64.size]
  omega

theorem add_zero (a : UInt64) : add a 0 = a := by
  have ha := a.toNat_lt
  rw [← UInt64.toNat_inj, toNat_add, UInt64.toNat_zero]
  simp only [UInt64.size]
  omega

theorem sub_ofNat_iff {n : Nat} {less : UInt64} (hless : less.toNat ≤ n) :
    sub (ofNat n) less = ofNat (n - less.toNat) ↔ ¬ Slips n (n - less.toNat) := by
  have h : add (sub (ofNat n) less) 0 = ofNat (n - less.toNat + 0) ↔
      ¬ Slips n (n - less.toNat + 0) := add_sub_ofNat_iff hless
  rw [add_zero, Nat.add_zero] at h
  exact h

end Counter

namespace SelectionList

/-! ## What the counts should be -/

/-- How many instances some selections hold together, however many. -/
def total : List Selection → Nat
  | [] => 0
  | s :: selections => s.totalCount.toNat + total selections

/-- What holds of every list by its documentation. -/
structure Documented (l : SelectionList) : Prop where
  selectionCount : l.selectionCount = Counter.ofNat l.selections.length
  instances : l.instancesInSelectionsCount = Counter.ofNat (total l.selections)
  index : ∀ s ∈ l.selections, s.selectionId ≤ l.rollingSelectionIndex

theorem total_append (before after : List Selection) :
    total (before ++ after) = total before + total after := by
  induction before with
  | nil => exact (Nat.zero_add _).symm
  | cons s before ih => rw [List.cons_append, total, ih, total, Nat.add_assoc]

theorem foldl_add_totalCount (selections : List Selection) (n : Nat) :
    selections.foldl (fun sum s => Counter.add sum s.totalCount) (Counter.ofNat n) =
      Counter.ofNat (n + total selections) := by
  induction selections generalizing n with
  | nil => rfl
  | cons s selections ih =>
      rw [List.foldl_cons, Counter.add_ofNat, ih, total, Nat.add_assoc]

theorem totalInstances_eq (selections : List Selection) :
    totalInstances selections = Counter.ofNat (total selections) := by
  have h := foldl_add_totalCount selections 0
  rw [Nat.zero_add] at h
  exact h

theorem le_max (a b : UInt64) : a ≤ max a b ∧ b ≤ max a b := by
  show a ≤ (if a ≤ b then b else a) ∧ b ≤ (if a ≤ b then b else a)
  simp only [UInt64.le_iff_toNat_le]
  split <;> omega

theorem le_highestId (atLeast : UInt64) (selections : List Selection) :
    atLeast ≤ highestId atLeast selections ∧
      ∀ s ∈ selections, s.selectionId ≤ highestId atLeast selections := by
  induction selections generalizing atLeast with
  | nil => exact ⟨UInt64.le_refl _, by simp⟩
  | cons s selections ih =>
      obtain ⟨hstart, hall⟩ := ih (max atLeast s.selectionId)
      obtain ⟨hleft, hright⟩ := le_max atLeast s.selectionId
      constructor
      · exact UInt64.le_trans hleft hstart
      · intro t ht
        rcases List.mem_cons.mp ht with rfl | ht
        · exact UInt64.le_trans hright hstart
        · exact hall t ht

theorem highestId_eq_self {atLeast : UInt64} {selections : List Selection}
    (h : ∀ s ∈ selections, s.selectionId ≤ atLeast) : highestId atLeast selections = atLeast := by
  induction selections with
  | nil => rfl
  | cons s selections ih =>
      have hmax : max atLeast s.selectionId = atLeast := by
        have hs := h s (by simp)
        show (if atLeast ≤ s.selectionId then s.selectionId else atLeast) = atLeast
        split
        · next hle => exact UInt64.le_antisymm hs hle
        · rfl
      rw [highestId, List.foldl_cons, hmax]
      exact ih fun t ht => h t (by simp [ht])

theorem documented_restore (selections : List Selection) (index : UInt64) :
    (restore selections index).Documented where
  selectionCount := rfl
  instances := totalInstances_eq selections
  index := (le_highestId index selections).2

/-- A list is as documented if and only if restoring its parts gives the same list. -/
theorem documented_iff_restore (l : SelectionList) :
    l.Documented ↔ restore l.selections l.rollingSelectionIndex = l := by
  constructor
  · intro h
    rw [restore, highestId_eq_self h.index, totalInstances_eq, ← h.selectionCount, ← h.instances]
  · intro h
    rw [← h]
    exact documented_restore _ _

/-! ## Edits that slip -/

/-- An edit makes one of the numbers slip that are counted. -/
def Slips (l : SelectionList) (e : Edit) : Prop :=
  Counter.Slips l.selections.length (l.edit e).selections.length ∨
    Counter.Slips (total l.selections) (total (l.edit e).selections)

/-! ## One edit -/

/-- The id of a new selection is the new index; no other selection gets an id. -/
theorem index_edit {l : SelectionList}
    (h : ∀ s ∈ l.selections, s.selectionId ≤ l.rollingSelectionIndex) (e : Edit) :
    ∀ s ∈ (l.edit e).selections, s.selectionId ≤ (l.edit e).rollingSelectionIndex := by
  have houtcome := l.outcome_edit e
  generalize l.edit e = next at houtcome ⊢
  intro s hs
  cases houtcome with
  | failed => exact h s hs
  | added payload details =>
      rcases List.mem_cons.mp hs with rfl | hs
      · exact UInt64.le_refl _
      · -- The index goes up by one, or stays where it stops.
        have hgrows : l.rollingSelectionIndex ≤ Counter.add l.rollingSelectionIndex 1 := by
          have hlt := l.rollingSelectionIndex.toNat_lt
          rw [UInt64.le_iff_toNat_le, Counter.toNat_add]
          simp only [UInt64.size]
          omega
        exact UInt64.le_trans (h s hs) hgrows
  | merged before previous after payload details hsplit =>
      rw [hsplit] at h
      rcases List.mem_append.mp hs with hs | hs
      · exact h s (List.mem_append_left _ hs)
      · rcases List.mem_cons.mp hs with rfl | hs
        · exact h previous (by simp)
        · exact h s (by simp [hs])
  | removed before removed after hsplit =>
      rw [hsplit] at h
      rcases List.mem_append.mp hs with hs | hs
      · exact h s (List.mem_append_left _ hs)
      · exact h s (by simp [hs])

theorem selectionCount_edit_iff {l : SelectionList}
    (h : l.selectionCount = Counter.ofNat l.selections.length) (e : Edit) :
    (l.edit e).selectionCount = Counter.ofNat (l.edit e).selections.length ↔
      ¬ Counter.Slips l.selections.length (l.edit e).selections.length := by
  have houtcome := l.outcome_edit e
  generalize l.edit e = next at houtcome ⊢
  cases houtcome with
  | failed => exact iff_of_true h (Counter.not_slips_of_le (Nat.le_refl _))
  | added payload details =>
      refine iff_of_true ?_ (Counter.not_slips_of_le (Nat.le_succ _))
      show Counter.add l.selectionCount 1 = _
      rw [h, Counter.add_ofNat]
      rfl
  | merged before previous after payload details hsplit =>
      have hlength : (before ++ previous.merged payload details :: after).length =
          l.selections.length := by
        rw [hsplit]
        simp
      refine iff_of_true ?_ (Counter.not_slips_of_le (Nat.le_of_eq hlength.symm))
      show l.selectionCount = Counter.ofNat (List.length _)
      rw [hlength]
      exact h
  | removed before removed after hsplit =>
      -- No other edit makes the list shorter, so no other one may slip here.
      have hlength : l.selections.length = (before ++ after).length + 1 := by
        rw [hsplit]
        simp [Nat.add_assoc]
      have hless : (1 : UInt64).toNat ≤ l.selections.length := by
        rw [hlength]
        exact Nat.le_add_left 1 _
      have hnow : l.selections.length - (1 : UInt64).toNat = (before ++ after).length := by
        rw [hlength]
        rfl
      show Counter.sub l.selectionCount 1 = _ ↔ _
      rw [h, ← hnow]
      exact Counter.sub_ofNat_iff hless

theorem instances_edit_iff {l : SelectionList}
    (h : l.instancesInSelectionsCount = Counter.ofNat (total l.selections)) (e : Edit) :
    (l.edit e).instancesInSelectionsCount = Counter.ofNat (total (l.edit e).selections) ↔
      ¬ Counter.Slips (total l.selections) (total (l.edit e).selections) := by
  have houtcome := l.outcome_edit e
  generalize l.edit e = next at houtcome ⊢
  cases houtcome with
  | failed => exact iff_of_true h (Counter.not_slips_of_le (Nat.le_refl _))
  | added payload details =>
      have htotal : total (l.withNew payload details).selections =
          total l.selections + details.totalCount.toNat :=
        Nat.add_comm _ _
      refine iff_of_true ?_ (Counter.not_slips_of_le (by omega))
      show Counter.add l.instancesInSelectionsCount details.totalCount = _
      rw [h, Counter.add_ofNat, htotal]
  | merged before previous after payload details hsplit =>
      -- The total without the previous count, and with the new one.
      have hbefore : total l.selections =
          total before + (previous.totalCount.toNat + total after) := by
        rw [hsplit, total_append, total]
      have hafter : total (before ++ previous.merged payload details :: after) =
          total before + (details.totalCount.toNat + total after) := by
        rw [total_append, total]
        rfl
      have hless : previous.totalCount.toNat ≤ total l.selections := by omega
      have hnow : total l.selections - previous.totalCount.toNat + details.totalCount.toNat =
          total (before ++ previous.merged payload details :: after) := by omega
      show Counter.add (Counter.sub l.instancesInSelectionsCount previous.totalCount)
        details.totalCount = _ ↔ _
      rw [h, ← hnow]
      exact Counter.add_sub_ofNat_iff hless
  | removed before removed after hsplit =>
      have hbefore : total l.selections =
          total before + (removed.totalCount.toNat + total after) := by
        rw [hsplit, total_append, total]
      have hless : removed.totalCount.toNat ≤ total l.selections := by omega
      have hnow : total l.selections - removed.totalCount.toNat = total (before ++ after) := by
        rw [total_append]
        omega
      show Counter.sub l.instancesInSelectionsCount removed.totalCount = _ ↔ _
      rw [h, ← hnow]
      exact Counter.sub_ofNat_iff hless

/-- One edit keeps a list as documented exactly when it does not slip. -/
theorem documented_edit_iff {l : SelectionList} (h : l.Documented) (e : Edit) :
    (l.edit e).Documented ↔ ¬ l.Slips e := by
  rw [Slips, not_or, ← selectionCount_edit_iff h.selectionCount, ← instances_edit_iff h.instances]
  constructor
  · intro hnext
    exact ⟨hnext.selectionCount, hnext.instances⟩
  · rintro ⟨hcount, hinstances⟩
    exact ⟨hcount, hinstances, index_edit h.index e⟩

/-! ## Any number of edits -/

theorem index_edits {l : SelectionList}
    (h : ∀ s ∈ l.selections, s.selectionId ≤ l.rollingSelectionIndex) (es : List Edit) :
    ∀ s ∈ (l.edits es).selections, s.selectionId ≤ (l.edits es).rollingSelectionIndex := by
  induction es generalizing l with
  | nil => exact h
  | cons e es ih => exact ih (index_edit h e)

/-- A list that is as documented stays so through some edits exactly when none of them slips. -/
theorem documented_edits_iff {l : SelectionList} (h : l.Documented) (es : List Edit) :
    (∀ before, before <+: es → (l.edits before).Documented) ↔
      ∀ before e, before ++ [e] <+: es → ¬ (l.edits before).Slips e := by
  induction es generalizing l with
  | nil =>
      refine iff_of_true ?_ ?_
      · intro before hbefore
        rw [List.prefix_nil.mp hbefore]
        exact h
      · intro before e hbefore
        simp at hbefore
  | cons e es ih =>
      -- After the first edit the list is as documented either way, and the rest is about that list.
      constructor
      · intro hall before f hbefore
        have hnext : (l.edit e).Documented := hall [e] (by simp)
        cases before with
        | nil =>
            obtain ⟨rfl, -⟩ := List.cons_prefix_cons.mp hbefore
            exact (documented_edit_iff h f).mp hnext
        | cons first before =>
            obtain ⟨rfl, hrest⟩ := List.cons_prefix_cons.mp hbefore
            refine (ih hnext).mp ?_ before f hrest
            intro initial hinitial
            exact hall (first :: initial) (List.cons_prefix_cons.mpr ⟨rfl, hinitial⟩)
      · intro hnone before hbefore
        have hnext : (l.edit e).Documented :=
          (documented_edit_iff h e).mpr (hnone [] e (by simp))
        cases before with
        | nil => exact h
        | cons first before =>
            obtain ⟨rfl, hrest⟩ := List.cons_prefix_cons.mp hbefore
            refine (ih hnext).mpr ?_ before hrest
            intro initial f hinitial
            exact hnone (first :: initial) f (List.cons_prefix_cons.mpr ⟨rfl, hinitial⟩)

/-- **When the counts are right.** Take any restored list, as the empty one is, and any edits.
The index never falls behind the ids. The list is as documented all the way exactly when no edit
makes a number smaller that exceeds all counts. And a list is as documented exactly when restoring
its parts gives the same list. -/
theorem documented_iff_never_slips (selections : List Selection) (index : UInt64)
    (es : List Edit) :
    let start := restore selections index
    (∀ s ∈ (start.edits es).selections,
      s.selectionId ≤ (start.edits es).rollingSelectionIndex) ∧
    ((∀ before, before <+: es → (start.edits before).Documented) ↔
      ∀ before e, before ++ [e] <+: es → ¬ (start.edits before).Slips e) ∧
    ∀ l : SelectionList, l.Documented ↔ restore l.selections l.rollingSelectionIndex = l := by
  intro start
  have hstart : start.Documented := documented_restore selections index
  refine ⟨?_, ?_, ?_⟩
  · exact index_edits hstart.index es
  · exact documented_edits_iff hstart es
  · exact documented_iff_restore

/-- Two selections that hold almost as many instances each as a counter can show. -/
def crowded : SelectionList :=
  restore
    [{ selectionId := 2, totalCount := 18446744073709551614 },
     { selectionId := 1, totalCount := 18446744073709551614 }] 2

/-- The count of both stopped at the greatest count, so without one of them it shows a single
instance where all those of the other are left. -/
theorem crowded_remove :
    (crowded.edits [.remove 1]).instancesInSelectionsCount = 1 ∧
      total (crowded.edits [.remove 1]).selections = 18446744073709551614 ∧
      ¬ (crowded.edits [.remove 1]).Documented := by
  refine ⟨by decide, by decide, ?_⟩
  intro h
  exact absurd h.instances (by decide)

end SelectionList

end InstanceConsole

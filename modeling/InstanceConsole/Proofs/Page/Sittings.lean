import InstanceConsole.Proofs.Page.Extension
import InstanceConsole.Proofs.Page.SelectionFetches
import InstanceConsole.Proofs.Page.StoreMirror
import InstanceConsole.Proofs.Selection.Ids

/-!
# Ids over many sittings

A sitting mounts a page on what the one before has stored. It may end with fetches that nobody
answers any more. The next id is kept by the list of the page, by the updates and by the store,
and loading puts it right when it is behind. Over any number of sittings all of these agree: the
selections are numbered in the order of their creation (`Sitting.numbered_page`). So the answer to
an extension never meets a selection that came after its request.
-/

set_option autoImplicit false

namespace InstanceConsole

open SelectionList (Numbered ids creations)

/-! ## Numbered pages -/

namespace LivePage

/-- The greatest id that the page has given out. -/
def index (l : LivePage) : UInt64 := l.page.snapshot.selections.rollingSelectionIndex

variable {l : LivePage} {m : Move} {moves : List Move} {created : Nat} {k : UInt64}

theorem numbered_mount {stored : StoredState}
    (h : Numbered stored.selections stored.rollingSelectionIndex created) (location : Location) :
    Numbered (mount stored location).selections (mount stored location).index created := by
  rw [selections, index, (snapshot_mount stored location).2, StoredState.selectionList,
    h.rollingSelectionIndex_restore]
  exact h

theorem numbered_run (h : Numbered l.selections l.index created)
    (hfew : created + creations (l.edits moves) < UInt64.size) :
    Numbered (l.run moves).selections (l.run moves).index
      (created + creations (l.edits moves)) := by
  rw [selections, index, selections_run]
  exact SelectionList.numbered_edits h _ hfew

/-- A new selection has the next number. -/
theorem toNat_selectionId_of_makes {payload : SelectionPayload} {details : InstancesDetails}
    (h : Numbered l.selections l.index created) (hfew : created + 1 < UInt64.size)
    (hm : l.Makes m (.new payload details)) :
    ∃ s, (l.step m).selections = s :: l.selections ∧ s.selectionId.toNat = created + 1 := by
  refine ⟨.ofAnswer (Counter.add l.index 1) payload details, ?_, SelectionList.toNat_next h hfew⟩
  rw [selections, selections_step_of_makes hm]
  rfl

/-- A selection that is gone does not come back. -/
theorem notMem_ids_run (h : Numbered l.selections l.index created)
    (hfew : created + creations (l.edits moves) < UInt64.size) (hk : k.toNat ≤ created)
    (hgone : k ∉ ids l.selections) : k ∉ ids (l.run moves).selections := by
  rw [selections, selections_run]
  exact SelectionList.notMem_ids_edits h hfew hk hgone

theorem creations_edits_of_makes {before after : List Move} {payload : SelectionPayload}
    {details : InstancesDetails} (hsplit : moves = before ++ m :: after)
    (hm : (l.run before).Makes m (.new payload details)) :
    creations (l.edits before) + 1 ≤ creations (l.edits moves) := by
  rw [hsplit, edits_append, edits, edit?_of_makes hm, SelectionList.creations_append,
    SelectionList.creations_append]
  have hone : creations (some (SelectionList.Edit.new payload details)).toList = 1 := rfl
  omega

end LivePage

/-! ## Sittings -/

/-- A page is mounted at a location and some moves reach it, until it is taken off. -/
structure Sitting where
  location : Location
  moves : List Move

namespace Sitting

/-- The page at the end of a sitting. -/
def page (t : Sitting) (stored : StoredState) : LivePage :=
  (LivePage.mount stored t.location).run t.moves

/-- The stored state after a sitting, all writes having succeeded. -/
def leaves (t : Sitting) (stored : StoredState) : StoredState :=
  (t.page stored).store stored fun _ => true

/-- How many selections a sitting creates. -/
def created (t : Sitting) (stored : StoredState) : Nat :=
  creations ((LivePage.mount stored t.location).edits t.moves)

end Sitting

namespace StoredState

/-- The stored state after some sittings in turn. -/
def after (stored : StoredState) (sittings : List Sitting) : StoredState :=
  sittings.foldl (fun stored t => t.leaves stored) stored

/-- How many selections some sittings create. -/
def created (stored : StoredState) : List Sitting → Nat
  | [] => 0
  | t :: sittings => t.created stored + (t.leaves stored).created sittings

theorem created_append_singleton (stored : StoredState) (past : List Sitting) (t : Sitting) :
    stored.created (past ++ [t]) = stored.created past + t.created (stored.after past) := by
  induction past generalizing stored with
  | nil => exact Nat.add_comm _ _
  | cons first past ih =>
      show first.created stored + (first.leaves stored).created (past ++ [t]) = _
      rw [ih, ← Nat.add_assoc]
      rfl

end StoredState

variable {stored : StoredState} {t : Sitting} {created : Nat}

namespace Sitting

theorem numbered_page
    (h : Numbered stored.selections stored.rollingSelectionIndex created)
    (hfew : created + t.created stored < UInt64.size) :
    Numbered (t.page stored).selections (t.page stored).index (created + t.created stored) :=
  LivePage.numbered_run (LivePage.numbered_mount h t.location) hfew

/-- A sitting leaves the selections of its page and their index in the store. -/
theorem selections_leaves (h : Numbered stored.selections stored.rollingSelectionIndex created)
    (t : Sitting) :
    (t.leaves stored).selections = (t.page stored).selections ∧
      (t.leaves stored).rollingSelectionIndex = (t.page stored).index := by
  have hne : StatePart.selections ≠ .filter := by simp
  have hmirror : StatePart.selections.held (t.leaves stored) =
        StatePart.selections.patch (t.page stored).page.snapshot ∨
      StatePart.selections.held (t.leaves stored) =
        StatePart.selections.held ((LivePage.mount stored t.location).store stored fun _ => true) ∧
      StatePart.selections.patch (t.page stored).page.snapshot =
        StatePart.selections.patch (LivePage.mount stored t.location).page.snapshot :=
    (LivePage.held_run_of_forall_written stored hne fun _ _ => rfl).imp_right fun h => h.2
  rcases hmirror with hheld | ⟨hheld, hpatch⟩
  · exact ⟨Option.some.inj (congrArg StatePatch.selections hheld),
      Option.some.inj (congrArg StatePatch.rollingSelectionIndex hheld)⟩
  · -- Nothing has changed since the page was mounted, which found nothing to put right.
    rw [LivePage.store_mount] at hheld
    have hpage := StatePatch.ofSelections_injective hpatch
    rw [(LivePage.snapshot_mount stored t.location).2] at hpage
    rw [LivePage.selections, LivePage.index, hpage, StoredState.selectionList,
      h.rollingSelectionIndex_restore]
    exact StatePart.eq_of_held_selections hheld

theorem numbered_leaves
    (h : Numbered stored.selections stored.rollingSelectionIndex created)
    (hfew : created + t.created stored < UInt64.size) :
    Numbered (t.leaves stored).selections (t.leaves stored).rollingSelectionIndex
      (created + t.created stored) := by
  obtain ⟨hselections, hindex⟩ := selections_leaves h t
  rw [hselections, hindex]
  exact numbered_page h hfew

end Sitting

theorem StoredState.numbered_after {past : List Sitting}
    (h : Numbered stored.selections stored.rollingSelectionIndex created)
    (hfew : created + stored.created past < UInt64.size) :
    Numbered (stored.after past).selections (stored.after past).rollingSelectionIndex
      (created + stored.created past) := by
  induction past generalizing stored created with
  | nil => exact h
  | cons t past ih =>
      have hsum : created + stored.created (t :: past) =
          created + t.created stored + (t.leaves stored).created past :=
        (Nat.add_assoc _ _ _).symm
      rw [hsum] at hfew ⊢
      exact ih (Sitting.numbered_leaves h (by omega)) hfew

/-! ## Answers to extensions -/

namespace ExtensionRequest

variable (r : ExtensionRequest) (start : LivePage) (k : UInt64)

/-- The page right after the request has been made. -/
def asked : LivePage := (r.sent start).step (.event r.event)

/-- The selection stays until the answer comes, which leaves it with the queries that it had when
the request was made and the one that was picked. -/
structure Meets (s : Selection) : Prop where
  stays : ∀ middle, middle <+: r.between → k ∈ ids ((r.asked start).run middle).selections
  replaced : ∃ before u t after, (r.due start).selections = before ++ u :: after ∧
    u.selectionId = k ∧ (r.done start).selections = before ++ t :: after ∧ t.selectionId = k ∧
    t.queries = s.queries ++ [(r.sent start).page.pickedQuery]

/-- The selection is gone when the answer comes, which changes nothing but the error shown. -/
structure Refused : Prop where
  gone : k ∉ ids (r.due start).selections
  snapshot : (r.done start).page.snapshot =
    (r.due start).page.snapshot.withError (.selectionNotFound k)

variable {r start k} {s : Selection} {created : Nat}

section

-- The ids last until the answer comes.
variable (h : Numbered (r.sent start).selections (r.sent start).index created)
  (hfew : created + creations ((r.sent start).edits (.event r.event :: r.between)) < UInt64.size)

include h hfew

/-- A selection that is there when the answer is due has been there all the time. -/
theorem stays_of_mem_due (hk : k.toNat ≤ created) (hdue : k ∈ ids (r.due start).selections)
    {middle : List Move} (hmiddle : middle <+: r.between) :
    k ∈ ids ((r.asked start).run middle).selections := by
  obtain ⟨rest, hrest⟩ := hmiddle
  rw [← hrest, ← List.cons_append, LivePage.edits_append, SelectionList.creations_append,
    ← Nat.add_assoc] at hfew
  have hnow : Numbered ((r.sent start).run (.event r.event :: middle)).selections
      ((r.sent start).run (.event r.event :: middle)).index
      (created + creations ((r.sent start).edits (.event r.event :: middle))) :=
    LivePage.numbered_run h (by omega)
  by_contra hgone
  -- Once gone it would be gone when the answer is due.
  refine LivePage.notMem_ids_run hnow hfew (by omega) hgone ?_
  have hrun : ((r.sent start).run (.event r.event :: middle)).run rest = r.due start := by
    rw [← LivePage.run_append, List.cons_append, hrest]
    rfl
  rw [hrun]
  exact hdue

/-- The answer to an extension meets the selection that the request was made for, or none. -/
theorem meets_or_refused (hr : r.Extends start k)
    (hs : (r.sent start).page.snapshot.selections.get? k = some s) :
    r.Meets start k s ∨ r.Refused start k := by
  have hk : k.toNat ≤ created := h.toNat_le (SelectionList.mem_ids_of_get? hs)
  obtain ⟨payload, hwaiting, hqueries⟩ := r.waiting?_due hr hs
  obtain ⟨details, hdetails⟩ := hr.succeeds
  cases hdue : (r.due start).page.snapshot.selections.get? k with
  | none =>
      exact .inr ⟨SelectionList.get?_eq_none_iff.mp hdue,
        LivePage.snapshot_answer_extension_of_none hwaiting hdetails hdue⟩
  | some u =>
      obtain ⟨before, after, hsplit, -, hdone⟩ :=
        LivePage.selections_answer_extension hwaiting hdetails hdue
      have hid := SelectionList.selectionId_of_get? hdue
      have hmem := SelectionList.mem_ids_of_get? hdue
      refine .inl ⟨fun middle hmiddle => stays_of_mem_due h hfew hk hmem hmiddle, ?_⟩
      exact ⟨before, u, u.merged payload details, after, hsplit, hid, hdone, hid, hqueries⟩

/-- What is created while the request is out has a greater id than any selection before. -/
theorem lt_selectionId_of_makes (hk : k.toNat ≤ created) {before after : List Move} {m : Move}
    {payload : SelectionPayload} {details : InstancesDetails}
    (hsplit : r.between = before ++ m :: after)
    (hm : ((r.asked start).run before).Makes m (.new payload details)) :
    ∃ t, (((r.asked start).run before).step m).selections =
        t :: ((r.asked start).run before).selections ∧ k < t.selectionId := by
  have hposition : .event r.event :: r.between = (.event r.event :: before) ++ m :: after := by
    rw [hsplit, List.cons_append]
  have hmore := LivePage.creations_edits_of_makes (l := r.sent start) hposition hm
  have hnow : Numbered ((r.sent start).run (.event r.event :: before)).selections
      ((r.sent start).run (.event r.event :: before)).index
      (created + creations ((r.sent start).edits (.event r.event :: before))) :=
    LivePage.numbered_run h (by omega)
  obtain ⟨t, hnew, hid⟩ := LivePage.toNat_selectionId_of_makes hnow (by omega) hm
  refine ⟨t, hnew, ?_⟩
  rw [UInt64.lt_iff_toNat_lt]
  omega

end

end ExtensionRequest

/-! ## All sittings -/

theorem StoredState.numbered_empty : Numbered ({} : StoredState).selections 0 0 :=
  ⟨rfl, by simp [ids], List.Pairwise.nil⟩

/-- **No id is given out twice.** Begin with an empty store and let any sittings follow one
another, in each of which anything may happen. As long as the ids last, the index of the list is
the number of selections created so far, in the page as in the store, and the ids decrease from
front to back. So the next selection that is created has the next number as its id. The answer to
an extension meets the selection that the request was made for, or is refused; what is created in
the meantime has a greater id. -/
theorem Sitting.ids_never_reused (past : List Sitting) (location : Location) (moves : List Move)
    (hfew : ({} : StoredState).created (past ++ [⟨location, moves⟩]) < UInt64.size) :
    let stored := ({} : StoredState).after past
    let created (soFar : List Move) := ({} : StoredState).created (past ++ [⟨location, soFar⟩])
    let start := LivePage.mount stored location
    let l := start.run moves
    (l.index.toNat = created moves ∧ (ids l.selections).Pairwise (· > ·)) ∧
    (stored.rollingSelectionIndex.toNat = ({} : StoredState).created past ∧
      (ids stored.selections).Pairwise (· > ·)) ∧
    (∀ before m after payload details, moves = before ++ m :: after →
      (start.run before).Makes m (.new payload details) →
      ∃ s, ((start.run before).step m).selections = s :: (start.run before).selections ∧
        s.selectionId.toNat = created before + 1) ∧
    ∀ (r : ExtensionRequest) (k : UInt64) (s : Selection), r.moves start <+: moves →
      r.Extends start k → (r.sent start).page.snapshot.selections.get? k = some s →
      (r.Meets start k s ∨ r.Refused start k) ∧
      ∀ before m after payload details, r.between = before ++ m :: after →
        ((r.asked start).run before).Makes m (.new payload details) →
        ∃ t, (((r.asked start).run before).step m).selections =
          t :: ((r.asked start).run before).selections ∧ k < t.selectionId := by
  intro stored created start l
  have hcreated : ∀ soFar, created soFar =
      ({} : StoredState).created past + creations (start.edits soFar) :=
    fun soFar => StoredState.created_append_singleton _ past _
  have htotal : ({} : StoredState).created past + creations (start.edits moves) < UInt64.size := by
    rw [← hcreated]
    exact hfew
  have hstored : Numbered stored.selections stored.rollingSelectionIndex
      (0 + ({} : StoredState).created past) :=
    StoredState.numbered_after StoredState.numbered_empty (by omega)
  rw [Nat.zero_add] at hstored
  have hstart : Numbered start.selections start.index (({} : StoredState).created past) :=
    LivePage.numbered_mount hstored location
  refine ⟨?_, ⟨hstored.toNat_index, hstored.newestFirst⟩, ?_, ?_⟩
  · have hnow : Numbered l.selections l.index
        (({} : StoredState).created past + creations (start.edits moves)) :=
      LivePage.numbered_run hstart htotal
    rw [← hcreated] at hnow
    exact ⟨hnow.toNat_index, hnow.newestFirst⟩
  · intro before m after payload details hsplit hm
    have hmore := LivePage.creations_edits_of_makes (l := start) hsplit hm
    rw [hcreated]
    exact LivePage.toNat_selectionId_of_makes (LivePage.numbered_run hstart (by omega)) (by omega)
      hm
  · rintro r k s ⟨rest, rfl⟩ hextends hs
    -- The moves up to the request, those up to its answer, and all others.
    have hmoves : r.moves start ++ rest =
        r.before ++ ((.event r.event :: r.between) ++
          (.answer (r.number start) r.reply :: rest)) := by
      simp [ExtensionRequest.moves]
    rw [hmoves, LivePage.edits_append, LivePage.edits_append, SelectionList.creations_append,
      SelectionList.creations_append] at htotal
    have hsent : Numbered (r.sent start).selections (r.sent start).index
        (({} : StoredState).created past + creations (start.edits r.before)) :=
      LivePage.numbered_run hstart (by omega)
    have hfew : ({} : StoredState).created past + creations (start.edits r.before) +
        creations ((r.sent start).edits (.event r.event :: r.between)) < UInt64.size := by
      show _ + creations ((start.run r.before).edits _) < _
      omega
    constructor
    · exact r.meets_or_refused hsent hfew hextends hs
    · intro before m after payload details hsplit hm
      have hk := hsent.toNat_le (SelectionList.mem_ids_of_get? hs)
      exact r.lt_selectionId_of_makes hsent hfew hk hsplit hm

/-! ## A late answer -/

open ExtensionRequest (pickOnly oneInstance)

/-- A selection is created and removed again. -/
def Sitting.inVain : Sitting where
  location := ⟨"/instances", ""⟩
  moves := [pickOnly "a", .event .addNewSelection, .answer 1 oneInstance,
    .event (.removeSelection 1)]

/-- Before the answer comes, the selection is removed and another one is created. -/
def ExtensionRequest.late : ExtensionRequest where
  before := [pickOnly "b", .event .addNewSelection, .answer 1 oneInstance, pickOnly "c"]
  event := .addToSelection 2
  between := [.event (.removeSelection 2), pickOnly "d", .event .addNewSelection,
    .answer 3 oneInstance]
  reply := oneInstance

theorem ExtensionRequest.ids_never_reused_late :
    let location : Location := ⟨"/instances", ""⟩
    let start := LivePage.mount (({} : StoredState).after [.inVain]) location
    let moves := late.moves start
    ({} : StoredState).created ([.inVain] ++ [⟨location, moves⟩]) < UInt64.size ∧
      late.Extends start 2 ∧ late.Refused start 2 ∧
      (start.run moves).index.toNat = 3 ∧ ids (start.run moves).selections = [3] := by
  intro location start moves
  have hcreated : ({} : StoredState).created ([.inVain] ++ [⟨location, moves⟩]) = 3 := by decide
  have hfew : ({} : StoredState).created ([.inVain] ++ [⟨location, moves⟩]) < UInt64.size := by
    rw [hcreated]
    decide
  have hextends : late.Extends start 2 := ⟨.inl rfl, by decide, by decide, _, rfl⟩
  have hall := Sitting.ids_never_reused [.inVain] location moves hfew
  have hindex : (start.run moves).index.toNat = 3 := hall.1.1.trans hcreated
  have hids : ids (start.run moves).selections = [3] := by decide
  have hanswer :=
    (hall.2.2.2 late 2 _ (List.prefix_refl _) hextends (Option.some_get (by decide)).symm).1
  refine ⟨hfew, hextends, ?_, hindex, hids⟩
  cases hanswer with
  | inl hmeets => exact absurd (hmeets.stays _ (List.prefix_refl _)) (by decide)
  | inr hrefused => exact hrefused

end InstanceConsole

import InstanceConsole.Proofs.Page.Reopening
import InstanceConsole.Proofs.Text.Utf8Order
import Mathlib.Data.List.Induction

/-!
# The activities on offer

The tasks of a diagram are offered by their labels. Labels may repeat, and a task without a name has
the same one as all others without, but ids do not. So the order by label and id is strict, and the
options do not depend on the order in which the diagram reports its nodes. A page offers the tasks
of the diagram that was drawn last.
-/

set_option autoImplicit false

namespace InstanceConsole

/-! ## Options -/

namespace ActivityOption

/-- One option comes before another by the bytes of their labels, and by those of their ids when
the labels are the same. -/
def Before (a b : ActivityOption) : Prop :=
  Utf8.ofString a.label < Utf8.ofString b.label ∨
    a.label = b.label ∧ Utf8.ofString a.value < Utf8.ofString b.value

/-- An option is labelled with the name of a node, or as unnamed when that is absent or empty. -/
structure Labels (o : ActivityOption) (node : FlowNode) : Prop where
  named : ∀ name, node.name = some name → name ≠ "" → o.label = name
  unnamed : node.name = none ∨ node.name = some "" → o.label = "Unnamed task"

theorem labels_ofNode (id : String) (node : FlowNode) : (ofNode id node).Labels node where
  named name hname hne := by
    rw [ofNode, hname, Option.filter_some_pos (by simpa using hne)]
    rfl
  unnamed := by
    rintro (hname | hname)
    · rw [ofNode, hname]
      rfl
    · rw [ofNode, hname]
      rfl

variable {a b c : ActivityOption}

theorem le_iff : le a b = true ↔ a.label < b.label ∨ a.label = b.label ∧ a.value ≤ b.value := by
  simp [le]

theorem le_trans (hab : le a b = true) (hbc : le b c = true) : le a c = true := by
  rw [le_iff] at hab hbc ⊢
  rcases hab with hab | ⟨hab, habv⟩
  · rcases hbc with hbc | ⟨hbc, -⟩
    · exact .inl (String.lt_trans hab hbc)
    · exact .inl (hbc ▸ hab)
  · rcases hbc with hbc | ⟨hbc, hbcv⟩
    · exact .inl (hab ▸ hbc)
    · exact .inr ⟨hab.trans hbc, String.le_trans habv hbcv⟩

theorem le_total (a b : ActivityOption) : (le a b || le b a) = true := by
  rw [Bool.or_eq_true, le_iff, le_iff]
  by_cases hab : a.label < b.label
  · exact .inl (.inl hab)
  · by_cases hba : b.label < a.label
    · exact .inr (.inl hba)
    · have hlabel : a.label = b.label :=
        String.le_antisymm (String.not_lt.mp hba) (String.not_lt.mp hab)
      rcases String.le_total a.value b.value with hv | hv
      · exact .inl (.inr ⟨hlabel, hv⟩)
      · exact .inr (.inr ⟨hlabel.symm, hv⟩)

/-- Of two options with different ids one comes before the other. -/
theorem before_of_le (h : le a b = true) (hne : a.value ≠ b.value) : a.Before b := by
  rcases le_iff.mp h with hlabel | ⟨hlabel, hvalue⟩
  · exact .inl (Utf8.ofString_lt_ofString_iff.mpr hlabel)
  · exact .inr ⟨hlabel, Utf8.ofString_lt_ofString_iff.mpr (Std.lt_of_le_of_ne hvalue hne)⟩

theorem Before.asymm (hab : a.Before b) (hba : b.Before a) : False := by
  rcases hab with hab | ⟨hlabel, hab⟩
  · rcases hba with hba | ⟨hlabel, -⟩
    · exact List.lt_asymm hab hba
    · rw [hlabel] at hab
      exact List.lt_irrefl _ hab
  · rcases hba with hba | ⟨-, hba⟩
    · rw [hlabel] at hba
      exact List.lt_irrefl _ hba
    · exact List.lt_asymm hab hba

end ActivityOption

namespace FlowNodes

open ActivityOption (Before Labels)

/-- The ids of the tasks among the nodes. -/
def taskIds (nodes : FlowNodes) : List String :=
  (nodes.entries.filter (·.2.type = .task)).map (·.1)

variable {nodes others : FlowNodes}

theorem nodup_taskIds (nodes : FlowNodes) : nodes.taskIds.Nodup :=
  (List.filter_sublist.map _).nodup nodes.distinct

/-- The options before they are sorted. -/
theorem activityOptions_perm (nodes : FlowNodes) :
    nodes.activityOptions.Perm ((nodes.entries.filter (·.2.type = .task)).map fun entry =>
      ActivityOption.ofNode entry.1 entry.2) :=
  List.mergeSort_perm _ _

theorem values_perm_taskIds (nodes : FlowNodes) :
    (nodes.activityOptions.map (·.value)).Perm nodes.taskIds := by
  refine (nodes.activityOptions_perm.map _).trans ?_
  rw [List.map_map]
  exact List.Perm.refl _

theorem labels_of_mem {o : ActivityOption} (h : o ∈ nodes.activityOptions) :
    ∃ node, (o.value, node) ∈ nodes.entries ∧ node.type = .task ∧ o.Labels node := by
  obtain ⟨entry, hentry, rfl⟩ := List.mem_map.mp (nodes.activityOptions_perm.mem_iff.mp h)
  obtain ⟨hmem, htask⟩ := List.mem_filter.mp hentry
  exact ⟨entry.2, hmem, by simpa using htask, ActivityOption.labels_ofNode _ _⟩

/-- **The options are strictly sorted**, since no two of them have the same id. -/
theorem pairwise_before (nodes : FlowNodes) : nodes.activityOptions.Pairwise Before := by
  have hsorted : nodes.activityOptions.Pairwise fun a b => ActivityOption.le a b = true := by
    apply List.pairwise_mergeSort
    · intro a b c hab hbc
      exact ActivityOption.le_trans hab hbc
    · exact ActivityOption.le_total
  have hdistinct : nodes.activityOptions.Pairwise fun a b => a.value ≠ b.value :=
    List.pairwise_map.mp (nodes.values_perm_taskIds.nodup_iff.mpr nodes.nodup_taskIds)
  exact (hsorted.and hdistinct).imp fun h => ActivityOption.before_of_le h.1 h.2

/-- The options do not depend on the order of the nodes. -/
theorem activityOptions_congr (h : others.entries.Perm nodes.entries) :
    others.activityOptions = nodes.activityOptions := by
  have htasks := (h.filter (·.2.type = .task)).map fun entry =>
    ActivityOption.ofNode entry.1 entry.2
  have hperm : others.activityOptions.Perm nodes.activityOptions :=
    others.activityOptions_perm.trans (htasks.trans nodes.activityOptions_perm.symm)
  exact hperm.eq_of_pairwise (fun _ _ _ _ hab hba => (hab.asymm hba).elim)
    others.pairwise_before nodes.pairwise_before

end FlowNodes

/-! ## The backdrop of a page

The activities, the workflow and the numbers in the header stand beside the filter and the
selections. One event brings a diagram and another one a workflow; nothing else changes any of
them. -/

/-- Two snapshots show the same beside the filter and the selections. -/
structure Snapshot.SameBackdrop (s t : Snapshot) : Prop where
  activityIds : t.activityIds = s.activityIds
  workflow : t.workflow = s.workflow
  running : t.running = s.running
  incidents : t.incidents = s.incidents

namespace PageEvent

/-- The diagram that an event brings. -/
def diagram? : PageEvent → Option FlowNodes
  | .flowNodesReady nodes => some nodes
  | _ => none

/-- The workflow that an event brings. -/
def workflow? : PageEvent → Option WorkflowRef
  | .workflowChanged workflow => some workflow
  | _ => none

/-- What is on offer after an event. -/
def activitiesAfter (options : List ActivityOption) (e : PageEvent) : List ActivityOption :=
  (e.diagram?.map FlowNodes.activityOptions).getD options

/-- When events replace what there was by what they bring, the last one that brings anything
decides. -/
theorem foldl_eq_last {α β : Type} {after : β → PageEvent → β} {brings : PageEvent → Option α}
    (f : α → β) (hafter : ∀ b e, after b e = ((brings e).map f).getD b) (events : List PageEvent)
    (b : β) : events.foldl after b = ((events.filterMap brings).getLast?.map f).getD b := by
  induction events using List.reverseRecOn with
  | nil => rfl
  | append_singleton events e ih =>
      rw [List.foldl_append, ih, List.filterMap_append]
      cases hbrings : brings e with
      | none => simp [hafter, hbrings]
      | some a => simp [hafter, hbrings]

/-- The last diagram decides on what is on offer. -/
theorem foldl_activitiesAfter (events : List PageEvent) (options : List ActivityOption) :
    events.foldl activitiesAfter options =
      ((events.filterMap diagram?).getLast?.map FlowNodes.activityOptions).getD options :=
  foldl_eq_last FlowNodes.activityOptions (fun _ _ => rfl) events options

end PageEvent

namespace Page

open Snapshot (SameBackdrop)

theorem sameBackdrop_commitSelections_ok {p : Page} {s : Snapshot}
    (h : SameBackdrop p.snapshot s) :
    SameBackdrop p.snapshot (p.commitSelections (.ok s)).snapshot := by
  rw [snapshot_commitSelections_ok]
  exact h

theorem sameBackdrop_dispatch (p : Page) {e : PageEvent} (hdiagram : e.diagram? = none)
    (hworkflow : e.workflow? = none) : SameBackdrop p.snapshot (p.dispatch e).snapshot := by
  cases e with
  | locationChanged location =>
      rw [dispatch, snapshot_onLocation]
      exact ⟨rfl, rfl, rfl, rfl⟩
  | filterChanged patch =>
      rw [dispatch, snapshot_applyFilter]
      exact ⟨rfl, rfl, rfl, rfl⟩
  | filterReset =>
      rw [dispatch, snapshot_applyFilter]
      exact ⟨rfl, rfl, rfl, rfl⟩
  | workflowChanged workflow => cases hworkflow
  | flowNodesReady nodes => cases hdiagram
  | addNewSelection =>
      rw [dispatch, snapshot_addNew]
      exact ⟨rfl, rfl, rfl, rfl⟩
  | addToSelection id =>
      rw [dispatch, snapshot_addTo]
      exact ⟨rfl, rfl, rfl, rfl⟩
  | addToOpenSelection =>
      simp only [dispatch]
      cases p.snapshot.openSelection with
      | none => exact ⟨rfl, rfl, rfl, rfl⟩
      | some id =>
          simp only
          rw [snapshot_addTo]
          exact ⟨rfl, rfl, rfl, rfl⟩
  | toggleOpenSelection id =>
      simp only [dispatch, Snapshot.withOpenToggled]
      cases p.snapshot.selections.get? id with
      | none => exact ⟨rfl, rfl, rfl, rfl⟩
      | some existing => exact ⟨rfl, rfl, rfl, rfl⟩
  | removeSelection id =>
      simp only [dispatch, Snapshot.withoutSelection]
      cases p.snapshot.selections.without id with
      | error error => exact ⟨rfl, rfl, rfl, rfl⟩
      | ok selections => exact sameBackdrop_commitSelections_ok ⟨rfl, rfl, rfl, rfl⟩
  | _ => exact ⟨rfl, rfl, rfl, rfl⟩

theorem sameBackdrop_complete (p : Page) (c : Completion) :
    SameBackdrop p.snapshot (p.complete c).snapshot := by
  cases c with
  | count token result =>
      simp only [complete, applyCompletion]
      split
      · cases result with
        | error error => exact ⟨rfl, rfl, rfl, rfl⟩
        | ok count =>
            rw [snapshot_store]
            exact ⟨rfl, rfl, rfl, rfl⟩
      · exact ⟨rfl, rfl, rfl, rfl⟩
  | newSelection payload result =>
      cases result with
      | error error => exact ⟨rfl, rfl, rfl, rfl⟩
      | ok details =>
          exact sameBackdrop_commitSelections_ok (p := { p with inFlight := p.inFlight - 1 })
            ⟨rfl, rfl, rfl, rfl⟩
  | extension id payload result =>
      cases result with
      | error error => exact ⟨rfl, rfl, rfl, rfl⟩
      | ok details =>
          simp only [complete, applyCompletion, Snapshot.withMergedSelection]
          cases p.snapshot.selections.withMerged id payload details with
          | error error => exact ⟨rfl, rfl, rfl, rfl⟩
          | ok selections =>
              exact sameBackdrop_commitSelections_ok (p := { p with inFlight := p.inFlight - 1 })
                ⟨rfl, rfl, rfl, rfl⟩

theorem activityIds_dispatch (p : Page) (e : PageEvent) :
    (p.dispatch e).snapshot.activityIds = e.activitiesAfter p.snapshot.activityIds := by
  cases e with
  | workflowChanged workflow => rfl
  | flowNodesReady nodes => rfl
  | _ => exact (p.sameBackdrop_dispatch rfl rfl).activityIds

end Page

namespace LivePage

variable {l : LivePage}

/-- What events make of a view, and answers leave alone, is what a run makes of it. -/
theorem view_run {β : Type} {view : Snapshot → β} {after : β → PageEvent → β}
    (hevent : ∀ (p : Page) (e : PageEvent),
      view (p.dispatch e).snapshot = after (view p.snapshot) e)
    (hanswer : ∀ (p : Page) (c : Completion), view (p.complete c).snapshot = view p.snapshot)
    (h : l.page.InSync) (moves : List Move) :
    view (l.run moves).page.snapshot =
      (moves.filterMap Move.event?).foldl after (view l.page.snapshot) := by
  refine run_eq_foldl_events (fun l => view l.page.snapshot) (fun l _ m => ?_) h moves
  cases m with
  | event e => exact hevent l.page e
  | visit location => rfl
  | answer number reply =>
      cases hw : l.waiting? number with
      | none =>
          rw [step_answer_of_none hw]
          rfl
      | some fetch =>
          rw [step_answer_of_some hw]
          exact hanswer l.page _

/-- At first a page shows what is stored, and the filter of its location. -/
theorem snapshot_mount_eq (stored : StoredState) (location : Location) :
    (mount stored location).page.snapshot =
      (Snapshot.ofStored stored).withFilter (mount stored location).page.snapshot.filter :=
  Page.snapshot_readSearch _ _

/-- The last diagram of a run decides on what is on offer. -/
theorem activityIds_run (stored : StoredState) (location : Location) (moves : List Move) :
    ((mount stored location).run moves).page.snapshot.activityIds =
      (((moves.filterMap Move.event?).filterMap PageEvent.diagram?).getLast?.map
        FlowNodes.activityOptions).getD [] := by
  have hsync : (mount stored location).page.InSync := Page.inSync_mount stored location
  have hrun := view_run Page.activityIds_dispatch
    (fun p c => (p.sameBackdrop_complete c).activityIds) hsync moves
  rw [hrun, PageEvent.foldl_activitiesAfter, snapshot_mount_eq]
  rfl

/-- **The activities on offer are the tasks of the last diagram.** Of any nodes each task has one
option, under its id, and no other node has any. An option shows the name of its task, and they are
strictly sorted by the bytes of their labels and ids, in whatever order the nodes come. In every
state of a page the options are those of the diagram that was drawn last, whatever came before, and
there are none as long as none was. -/
theorem activities_of_last_diagram (nodes : FlowNodes) (stored : StoredState)
    (location : Location) (moves : List Move) :
    nodes.taskIds.Nodup ∧ (nodes.activityOptions.map (·.value)).Perm nodes.taskIds ∧
    (∀ o ∈ nodes.activityOptions, ∃ node, (o.value, node) ∈ nodes.entries ∧
      node.type = .task ∧ o.Labels node) ∧
    nodes.activityOptions.Pairwise ActivityOption.Before ∧
    (∀ others : FlowNodes, others.entries.Perm nodes.entries →
      others.activityOptions = nodes.activityOptions) ∧
    let drawn := (moves.filterMap Move.event?).filterMap PageEvent.diagram?
    ((mount stored location).run moves).page.snapshot.activityIds =
      (drawn.getLast?.map FlowNodes.activityOptions).getD [] := by
  refine ⟨nodes.nodup_taskIds, nodes.values_perm_taskIds, fun _ => FlowNodes.labels_of_mem,
    nodes.pairwise_before, fun _ => FlowNodes.activityOptions_congr, ?_⟩
  exact activityIds_run stored location moves

end LivePage

end InstanceConsole

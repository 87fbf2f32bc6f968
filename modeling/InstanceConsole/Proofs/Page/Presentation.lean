import InstanceConsole.Page.View
import InstanceConsole.Proofs.Page.Activities

/-!
# Events for the presentation

A workflow, a diagram and the end of an error message change what is presented, and nothing on the
page looks at that. Each message does the same to the rest of the page, whatever is presented
(`Page.withoutPresentation_handle`), and these events leave that rest alone
(`Page.handle_of_isPresentation`). So a run goes on as it does without them (`LivePage.run_filter`),
and a session settles as it does without them (`Session.WorksAlike.settle`).
-/

set_option autoImplicit false

namespace InstanceConsole

/-- When steps do the same to a view wherever this is the same, those that leave it alone may be
left out. -/
theorem foldl_filter_congr {α β γ : Type} {view : β → γ} {step : β → α → β} {quiet : α → Bool}
    (hcongr : ∀ {b c : β}, view b = view c → ∀ a, view (step b a) = view (step c a))
    (hquiet : ∀ {a : α}, quiet a = true → ∀ b, view (step b a) = view b)
    {b c : β} (h : view b = view c) (as : List α) :
    view ((as.filter (!quiet ·)).foldl step b) = view (as.foldl step c) := by
  induction as generalizing b c with
  | nil => exact h
  | cons a as ih =>
      cases ha : quiet a with
      | true =>
          rw [List.filter_cons_of_neg (by simp [ha]), List.foldl_cons]
          exact ih (h.trans (hquiet ha c).symm)
      | false =>
          rw [List.filter_cons_of_pos (by simp [ha]), List.foldl_cons, List.foldl_cons]
          exact ih (hcongr h a)

/-! ## What is presented -/

/-- An event for the presentation alone. -/
def PageEvent.isPresentation : PageEvent → Bool
  | .workflowChanged _ => true
  | .flowNodesReady _ => true
  | .dismissError => true
  | _ => false

/-- The workflow after an event. -/
def PageEvent.workflowAfter (workflow : Option WorkflowRef) (e : PageEvent) : Option WorkflowRef :=
  e.workflow?.or workflow

/-- The last workflow is the one that stays. -/
theorem PageEvent.foldl_workflowAfter (events : List PageEvent) :
    events.foldl workflowAfter none = (events.filterMap workflow?).getLast? := by
  have hafter : ∀ workflow e, workflowAfter workflow e = (e.workflow?.map some).getD workflow := by
    intro workflow e
    unfold workflowAfter
    cases e.workflow? with
    | none => rfl
    | some next => rfl
  rw [foldl_eq_last some hafter]
  cases (events.filterMap workflow?).getLast? with
  | none => rfl
  | some workflow => rfl

def PageMessage.isPresentation : PageMessage → Bool
  | .event e => e.isPresentation
  | .completion _ => false

def Move.isPresentation : Move → Bool
  | .event e => e.isPresentation
  | _ => false

namespace Snapshot

/-- The snapshot but for the activities on offer, the workflow and the error message. -/
def withoutPresentation (s : Snapshot) : Snapshot :=
  { s with activityIds := [], workflow := none, errorMessage := none }

variable {s t : Snapshot}

theorem selections_withoutPresentation (s : Snapshot) :
    s.withoutPresentation.selections = s.selections := rfl

theorem selection_withoutPresentation (s : Snapshot) :
    s.withoutPresentation.selection = s.selection := rfl

theorem openSelection_withoutPresentation (s : Snapshot) :
    s.withoutPresentation.openSelection = s.openSelection := rfl

theorem header_eq_of_withoutPresentation (h : t.withoutPresentation = s.withoutPresentation) :
    t.header = s.header := by
  show t.withoutPresentation.header = s.withoutPresentation.header
  rw [h]

/-! The transitions that may fail do so whatever is presented. -/

theorem withOpenToggled_withoutPresentation (s : Snapshot) (id : UInt64) :
    s.withoutPresentation.withOpenToggled id =
      (s.withOpenToggled id).map withoutPresentation := by
  rw [withOpenToggled, withOpenToggled, selections_withoutPresentation]
  cases s.selections.get? id with
  | none => rfl
  | some existing => rfl

theorem withoutSelection_withoutPresentation (s : Snapshot) (id : UInt64) :
    s.withoutPresentation.withoutSelection id =
      (s.withoutSelection id).map withoutPresentation := by
  rw [withoutSelection, withoutSelection, selections_withoutPresentation]
  cases s.selections.without id with
  | error e => rfl
  | ok selections => rfl

theorem withMergedSelection_withoutPresentation (s : Snapshot) (id : UInt64)
    (payload : SelectionPayload) (details : InstancesDetails) :
    s.withoutPresentation.withMergedSelection id payload details =
      (s.withMergedSelection id payload details).map withoutPresentation := by
  rw [withMergedSelection, withMergedSelection, selections_withoutPresentation]
  cases s.selections.withMerged id payload details with
  | error e => rfl
  | ok selections => rfl

end Snapshot

namespace Page

/-- The page but for what is presented. -/
def withoutPresentation (p : Page) : Page :=
  { p with snapshot := p.snapshot.withoutPresentation }

variable {p q : Page} {e : PageEvent}

theorem snapshot_withoutPresentation (p : Page) :
    p.withoutPresentation.snapshot = p.snapshot.withoutPresentation := rfl

/-! ## What is presented makes no difference -/

theorem withoutPresentation_store (p : Page) (patch : StatePatch) :
    (p.store patch).withoutPresentation = p.withoutPresentation.store patch := by
  unfold store
  split
  · rfl
  · rfl

theorem withoutPresentation_commit (p : Page) (next : Except PageError Snapshot) :
    (p.commit next).withoutPresentation =
      (p.withoutPresentation.commit (next.map .withoutPresentation)).withoutPresentation := by
  cases next with
  | error error => rfl
  | ok s => rfl

theorem withoutPresentation_commitSelections (p : Page) (next : Except PageError Snapshot) :
    (p.commitSelections next).withoutPresentation =
      (p.withoutPresentation.commitSelections
        (next.map .withoutPresentation)).withoutPresentation := by
  cases next with
  | error error => rfl
  | ok s =>
      simp only [commitSelections, Except.map, withoutPresentation_store]
      rfl

theorem withoutPresentation_onLocation (p : Page) (search : String) :
    (p.onLocation search).withoutPresentation = p.withoutPresentation.onLocation search := by
  by_cases hsearch : p.currentSearch = some search
  · have hsame : p.withoutPresentation.currentSearch = some search := hsearch
    rw [onLocation, if_pos hsearch, onLocation, if_pos hsame]
  · have hother : p.withoutPresentation.currentSearch ≠ some search := hsearch
    rw [onLocation, if_neg hsearch, onLocation, if_neg hother, readSearch, readSearch]
    cases Filter.ofQuery search with
    | ok filter => rfl
    | error e => rfl

theorem withoutPresentation_applyFilter (p : Page) (filter : Filter) :
    (p.applyFilter filter).withoutPresentation = p.withoutPresentation.applyFilter filter := by
  have hmoved : ((p.pushFilter filter).onLocation filter.toQuery).withoutPresentation =
      (p.withoutPresentation.pushFilter filter).onLocation filter.toQuery :=
    withoutPresentation_onLocation _ _
  simp only [applyFilter, withoutPresentation_store, ← hmoved]
  rfl

theorem withoutPresentation_addTo (p : Page) (id : UInt64) :
    (p.addTo id).withoutPresentation = (p.withoutPresentation.addTo id).withoutPresentation := by
  unfold addTo
  rw [snapshot_withoutPresentation, Snapshot.selections_withoutPresentation,
    Snapshot.selection_withoutPresentation]
  cases p.snapshot.selections.get? id with
  | none => rfl
  | some existing =>
      dsimp only
      split
      · rfl
      · rfl

theorem withoutPresentation_dispatch (p : Page) (e : PageEvent) :
    (p.dispatch e).withoutPresentation =
      (p.withoutPresentation.dispatch e).withoutPresentation := by
  cases e with
  | locationChanged location =>
      simp only [dispatch, withoutPresentation_onLocation]
      rfl
  | filterChanged patch =>
      simp only [dispatch, withoutPresentation_applyFilter]
      rfl
  | filterReset =>
      simp only [dispatch, withoutPresentation_applyFilter]
      rfl
  | addNewSelection =>
      show p.addNew.withoutPresentation = p.withoutPresentation.addNew.withoutPresentation
      unfold addNew
      rw [snapshot_withoutPresentation, Snapshot.selection_withoutPresentation]
      split
      · rfl
      · rfl
  | addToSelection id => exact withoutPresentation_addTo p id
  | addToOpenSelection =>
      simp only [dispatch, snapshot_withoutPresentation,
        Snapshot.openSelection_withoutPresentation]
      cases p.snapshot.openSelection with
      | none => rfl
      | some id => exact withoutPresentation_addTo p id
  | toggleOpenSelection id =>
      simp only [dispatch, snapshot_withoutPresentation,
        Snapshot.withOpenToggled_withoutPresentation]
      exact withoutPresentation_commit p _
  | removeSelection id =>
      simp only [dispatch, snapshot_withoutPresentation,
        Snapshot.withoutSelection_withoutPresentation]
      exact withoutPresentation_commitSelections p _
  | _ => rfl

theorem withoutPresentation_complete (p : Page) (c : Completion) :
    (p.complete c).withoutPresentation =
      (p.withoutPresentation.complete c).withoutPresentation := by
  have hcommitted := withoutPresentation_commitSelections { p with inFlight := p.inFlight - 1 }
  cases c with
  | count token result =>
      simp only [complete, applyCompletion]
      show _ = withoutPresentation (if p.counts.isLatest token = true then _ else _)
      split
      · cases result with
        | error e => rfl
        | ok count =>
            simp only [withoutPresentation_store]
            rfl
      · rfl
  | newSelection payload result =>
      cases result with
      | error e => rfl
      | ok details => exact hcommitted (.ok (p.snapshot.withNewSelection payload details))
  | extension id payload result =>
      cases result with
      | error e => rfl
      | ok details =>
          simp only [complete, applyCompletion, snapshot_withoutPresentation,
            Snapshot.withMergedSelection_withoutPresentation]
          exact hcommitted (p.snapshot.withMergedSelection id payload details)

theorem withoutPresentation_handle (p : Page) (m : PageMessage) :
    (p.handle m).withoutPresentation = (p.withoutPresentation.handle m).withoutPresentation := by
  cases m with
  | event e => exact withoutPresentation_dispatch p e
  | completion c => exact withoutPresentation_complete p c

theorem withoutPresentation_handle_congr (h : q.withoutPresentation = p.withoutPresentation)
    (m : PageMessage) :
    (q.handle m).withoutPresentation = (p.handle m).withoutPresentation :=
  calc (q.handle m).withoutPresentation
      = (q.withoutPresentation.handle m).withoutPresentation := withoutPresentation_handle q m
    _ = (p.withoutPresentation.handle m).withoutPresentation := by rw [h]
    _ = (p.handle m).withoutPresentation := (withoutPresentation_handle p m).symm

/-! ## Events for the presentation change nothing else -/

theorem dispatch_of_isPresentation (he : e.isPresentation = true) (p : Page) :
    (p.dispatch e).withoutPresentation = p.withoutPresentation := by
  cases e with
  | workflowChanged workflow => rfl
  | flowNodesReady nodes => rfl
  | dismissError => rfl
  | _ => cases he

theorem handle_of_isPresentation {m : PageMessage} (hm : m.isPresentation = true) (p : Page) :
    (p.handle m).withoutPresentation = p.withoutPresentation := by
  cases m with
  | event e => exact dispatch_of_isPresentation hm p
  | completion c => cases hm

/-! ## What comes of the presentation itself -/

theorem workflow_dispatch (p : Page) (e : PageEvent) :
    (p.dispatch e).snapshot.workflow = e.workflowAfter p.snapshot.workflow := by
  cases e with
  | workflowChanged workflow => rfl
  | flowNodesReady nodes => rfl
  | _ => exact (p.sameBackdrop_dispatch rfl rfl).workflow

/-- No event changes the numbers of running instances and of incidents. -/
theorem numbers_dispatch (p : Page) (e : PageEvent) :
    (p.dispatch e).snapshot.running = p.snapshot.running ∧
      (p.dispatch e).snapshot.incidents = p.snapshot.incidents := by
  cases e with
  | workflowChanged workflow => exact ⟨rfl, rfl⟩
  | flowNodesReady nodes => exact ⟨rfl, rfl⟩
  | _ =>
      exact ⟨(p.sameBackdrop_dispatch rfl rfl).running, (p.sameBackdrop_dispatch rfl rfl).incidents⟩

end Page

namespace LivePage

/-- The page but for what is presented, with the same fetches answered. -/
def withoutPresentation (l : LivePage) : LivePage :=
  { l with page := l.page.withoutPresentation }

variable {k l : LivePage} {m : Move}

theorem waiting?_withoutPresentation (l : LivePage) (number : Nat) :
    l.withoutPresentation.waiting? number = l.waiting? number := rfl

theorem answered_eq_of_withoutPresentation (h : k.withoutPresentation = l.withoutPresentation) :
    k.answered = l.answered := by
  show k.withoutPresentation.answered = l.withoutPresentation.answered
  rw [h]

theorem message?_congr (h : k.withoutPresentation = l.withoutPresentation) :
    k.message? = l.message? := by
  show k.withoutPresentation.message? = l.withoutPresentation.message?
  rw [h]

theorem withoutPresentation_step (l : LivePage) (m : Move) :
    (l.step m).withoutPresentation = (l.withoutPresentation.step m).withoutPresentation := by
  cases m with
  | event e => exact congrArg (LivePage.mk · l.answered) (l.page.withoutPresentation_dispatch e)
  | visit location => rfl
  | answer number reply =>
      have hsame := l.waiting?_withoutPresentation number
      cases hw : l.waiting? number with
      | none =>
          rw [step_answer_of_none hw, step_answer_of_none (hsame.trans hw)]
          rfl
      | some fetch =>
          rw [step_answer_of_some hw, step_answer_of_some (hsame.trans hw)]
          exact congrArg (LivePage.mk · (number :: l.answered))
            (l.page.withoutPresentation_complete _)

theorem withoutPresentation_step_congr (h : k.withoutPresentation = l.withoutPresentation)
    (m : Move) :
    (k.step m).withoutPresentation = (l.step m).withoutPresentation := by
  rw [withoutPresentation_step k, h, ← withoutPresentation_step l]

theorem step_of_isPresentation (hm : m.isPresentation = true) (l : LivePage) :
    (l.step m).withoutPresentation = l.withoutPresentation := by
  cases m with
  | event e =>
      exact congrArg (LivePage.mk · l.answered) (Page.dispatch_of_isPresentation hm l.page)
  | _ => cases hm

/-- **A run goes on as it does without the events for the presentation.** -/
theorem run_filter (l : LivePage) (moves : List Move) :
    (l.run (moves.filter (!·.isPresentation))).withoutPresentation =
      (l.run moves).withoutPresentation :=
  foldl_filter_congr withoutPresentation_step_congr step_of_isPresentation rfl moves

/-- The last workflow of a run is the one that the page shows. -/
theorem workflow_run (stored : StoredState) (location : Location) (moves : List Move) :
    ((mount stored location).run moves).page.snapshot.workflow =
      ((moves.filterMap Move.event?).filterMap PageEvent.workflow?).getLast? := by
  have hsync : (mount stored location).page.InSync := Page.inSync_mount stored location
  have hrun := view_run Page.workflow_dispatch
    (fun p c => (p.sameBackdrop_complete c).workflow) hsync moves
  rw [hrun, ← PageEvent.foldl_workflowAfter, snapshot_mount_eq]
  rfl

/-- A page that shows a workflow shows one from then on. -/
theorem isSome_workflow_run (stored : StoredState) (location : Location) {before : List Move}
    (h : ((mount stored location).run before).page.snapshot.workflow.isSome = true)
    (after : List Move) :
    (((mount stored location).run before).run after).page.snapshot.workflow.isSome = true := by
  rw [workflow_run] at h
  rw [← run_append, workflow_run, List.filterMap_append, List.filterMap_append,
    List.getLast?_append, Option.isSome_or, h, Bool.or_true]

theorem numbers_run (stored : StoredState) (location : Location) (moves : List Move) :
    ((mount stored location).run moves).page.snapshot.running = stored.running ∧
      ((mount stored location).run moves).page.snapshot.incidents = stored.incidents := by
  refine page_run_induction
    (P := fun p => p.snapshot.running = stored.running ∧ p.snapshot.incidents = stored.incidents)
    moves ?_ ?_ (fun p history h => h) ?_
  · intro p e h
    obtain ⟨hrunning, hincidents⟩ := p.numbers_dispatch e
    exact ⟨hrunning.trans h.1, hincidents.trans h.2⟩
  · intro p c h
    have hsame := p.sameBackdrop_complete c
    exact ⟨hsame.running.trans h.1, hsame.incidents.trans h.2⟩
  · rw [snapshot_mount_eq]
    exact ⟨rfl, rfl⟩

/-! ## Messages and answers -/

theorem isPresentation_of_message? {message : PageMessage} (h : l.message? m = some message) :
    message.isPresentation = m.isPresentation := by
  cases m with
  | event e =>
      obtain rfl := Option.some.inj h
      rfl
  | visit location => cases h
  | answer number reply =>
      obtain ⟨fetch, -, rfl⟩ := Option.map_eq_some_iff.mp h
      rfl

theorem filterMap_message?_filter (l : LivePage) (moves : List Move) :
    (moves.filter (!·.isPresentation)).filterMap l.message? =
      (moves.filterMap l.message?).filter (!·.isPresentation) := by
  rw [List.filterMap_filter, List.filter_filterMap]
  refine List.filterMap_congr fun m _ => ?_
  cases hmessage : l.message? m with
  | none => simp
  | some message => simp [Option.filter_some, isPresentation_of_message? hmessage]

/-- An answer is not for the presentation. -/
theorem filterMap_number?_filter (moves : List Move) :
    (moves.filter (!·.isPresentation)).filterMap Move.number? = moves.filterMap Move.number? := by
  rw [List.filterMap_filter]
  refine List.filterMap_congr fun m _ => ?_
  cases m with
  | event e => exact ite_self none
  | answer number reply => rfl
  | visit location => rfl

end LivePage

namespace Session

/-- Two sessions work alike: their pages are the same but for what is presented, the same fetches
wait, and so do the same messages, but for those for the presentation, which only the first one
has. -/
structure WorksAlike (s t : Session) : Prop where
  page : t.page.withoutPresentation = s.page.withoutPresentation
  attached : t.attached = s.attached
  queue : t.queue = s.queue.filter (!·.isPresentation)
  answered : ∀ number, number ∈ t.answered ↔ number ∈ s.answered

variable {s t : Session} {k l : LivePage} {pending : List Move} {σ : Type}

theorem Follows.worksAlike (hs : s.Follows l pending)
    (ht : t.Follows k (pending.filter (!·.isPresentation)))
    (h : k.withoutPresentation = l.withoutPresentation) (hattached : t.attached = s.attached) :
    s.WorksAlike t where
  page := by
    rw [hs.page, ht.page]
    exact congrArg LivePage.page h
  attached := hattached
  queue := by
    rw [hs.queue_eq, ht.queue_eq, LivePage.message?_congr h, LivePage.filterMap_message?_filter]
  answered number := by
    rw [hs.answered, ht.answered, LivePage.answered_eq_of_withoutPresentation h,
      LivePage.filterMap_number?_filter]

theorem WorksAlike.held (h : s.WorksAlike t) : t.held = s.held := by
  refine held_congr ?_ h.answered
  show t.page.withoutPresentation.fetches = s.page.withoutPresentation.fetches
  rw [h.page]

theorem WorksAlike.deliver (h : s.WorksAlike t) (number : Nat) (completion : Completion) :
    (s.deliver number completion).WorksAlike (t.deliver number completion) where
  page := h.page
  attached := h.attached
  queue := by
    simp only [Session.deliver, h.attached, h.queue]
    split
    · exact (List.filter_append s.queue [.completion completion]).symm
    · rfl
  answered other := by simp only [Session.deliver, List.mem_cons, h.answered]

theorem WorksAlike.drain (h : s.WorksAlike t) : s.drain.WorksAlike t.drain where
  page := by
    simp only [Session.drain, h.queue]
    exact foldl_filter_congr Page.withoutPresentation_handle_congr Page.handle_of_isPresentation
      h.page s.queue
  attached := h.attached
  queue := rfl
  answered := h.answered

/-- **Sessions that work alike settle alike.** -/
theorem WorksAlike.settle (h : s.WorksAlike t) (backend : Backend σ) (state : σ) :
    (s.settle backend state).1.WorksAlike (t.settle backend state).1 ∧
      (t.settle backend state).2 = (s.settle backend state).2 :=
  settle_congr WorksAlike.held (fun number completion hst => hst.deliver number completion)
    WorksAlike.drain h backend state

theorem WorksAlike.storedState (h : s.WorksAlike t) (initial : StoredState) :
    t.storedState initial = s.storedState initial := by
  show t.page.withoutPresentation.writes.foldl StoredState.apply initial =
    s.page.withoutPresentation.writes.foldl StoredState.apply initial
  rw [h.page]

end Session

namespace LivePage

/-- **Presentation stays apart.** Mount a page, let anything happen, and leave out of that the
workflows, the diagrams and the errors that are dismissed. At every point the page is what it is
with them, but for the workflow, the activities on offer and the error message: it has the same
filter and count, the same selections, the same picks and open selection, the same locations
visited, the same fetches issued and answered, and the same updates queued, so that the header and
the store are the same whichever writes fail. Sessions on the two pages that have the same left to
do settle alike, with the same answers of the backend. As for what is presented, the last workflow
and the last diagram decide, a workflow is never taken away again, and the numbers in the header are
always the stored ones. -/
theorem presentation_stays_apart (stored : StoredState) (location : Location)
    (moves : List Move) :
    let start := mount stored location
    let l := start.run moves
    let k := start.run (moves.filter (!·.isPresentation))
    let events := moves.filterMap Move.event?
    k.page.withoutPresentation = l.page.withoutPresentation ∧
    k.page.snapshot.header = l.page.snapshot.header ∧
    k.answered = l.answered ∧
    (∀ initial written, k.store initial written = l.store initial written) ∧
    (∀ {σ : Type} (backend : Backend σ) (state : σ) {s t : Session} {pending : List Move},
      s.Follows l pending → t.Follows k (pending.filter (!·.isPresentation)) →
      t.attached = s.attached →
        let settled := (s.settle backend state).1
        let other := (t.settle backend state).1
        other.page.withoutPresentation = settled.page.withoutPresentation ∧
        (t.settle backend state).2 = (s.settle backend state).2 ∧
        ∀ initial, other.storedState initial = settled.storedState initial) ∧
    l.page.snapshot.workflow = (events.filterMap PageEvent.workflow?).getLast? ∧
    l.page.snapshot.activityIds =
      ((events.filterMap PageEvent.diagram?).getLast?.map FlowNodes.activityOptions).getD [] ∧
    (l.page.snapshot.workflow.isSome → ∀ after,
      (l.run after).page.snapshot.workflow.isSome) ∧
    l.page.snapshot.running = stored.running ∧ l.page.snapshot.incidents = stored.incidents := by
  intro start l k events
  have hrun : k.withoutPresentation = l.withoutPresentation := run_filter start moves
  have hpage : k.page.withoutPresentation = l.page.withoutPresentation := congrArg page hrun
  have hsnapshot : k.page.snapshot.withoutPresentation = l.page.snapshot.withoutPresentation :=
    congrArg Page.snapshot hpage
  refine ⟨hpage, Snapshot.header_eq_of_withoutPresentation hsnapshot, ?_, ?_, ?_,
    workflow_run stored location moves, activityIds_run stored location moves, ?_,
    numbers_run stored location moves⟩
  · exact answered_eq_of_withoutPresentation hrun
  · intro initial written
    show initial.applyWritten written k.page.withoutPresentation.writes =
      initial.applyWritten written l.page.withoutPresentation.writes
    rw [hpage]
  · intro σ backend state s t pending hs ht hattached settled other
    obtain ⟨hsettled, hstate⟩ := (hs.worksAlike ht hrun hattached).settle backend state
    exact ⟨hsettled.page, hstate, hsettled.storedState⟩
  · intro hsome after
    exact isSome_workflow_run stored location hsome after

/-- In one session a workflow is picked, an error is dismissed and another workflow waits, and in
the other one nothing of that happens. Both settle with the selection that was asked for. -/
theorem presentation_stays_apart_settled :
    let start := Session.mount {} ⟨"/instances", ""⟩
    let ask (s : Session) :=
      ((s.dispatch (.toggleInstance "a")).dispatch (.addToSelection 7)).dispatch .addNewSelection
    let asked := (ask (start.dispatch (.workflowChanged { id := "v" }))).dispatch .dismissError
    let s := { asked with queue := [.event (.workflowChanged { id := "w" })] }
    let t := ask start
    let backend : Backend Nat :=
      ⟨fun n _ => (.ok 1, n + 1), fun n _ => (.ok { totalCount := 1 }, n + 1)⟩
    let settled := (s.settle backend 0).1
    let other := (t.settle backend 0).1
    settled.page.snapshot.workflow = some { id := "w" } ∧ other.page.snapshot.workflow = none ∧
    settled.page.snapshot.errorMessage = none ∧
    other.page.snapshot.errorMessage = some "selection 7 does not exist" ∧
    settled.page.snapshot.selections.selectionCount = 1 ∧
    other.page.withoutPresentation = settled.page.withoutPresentation ∧
    (t.settle backend 0).2 = (s.settle backend 0).2 := by
  intro start ask asked s t backend settled other
  let moves : List Move := [.event (.workflowChanged { id := "v" }), .event (.toggleInstance "a"),
    .event (.addToSelection 7), .event .addNewSelection, .event .dismissError]
  have hstart := Session.follows_mount {} ⟨"/instances", ""⟩
  have hs : s.Follows ((mount {} ⟨"/instances", ""⟩).run moves)
      [.event (.workflowChanged { id := "w" })] :=
    (Session.Follows.send (((((hstart.dispatch _).dispatch _).dispatch _).dispatch _).dispatch _)
      rfl).2
  have ht : t.Follows
      ((mount {} ⟨"/instances", ""⟩).run (moves.filter (!·.isPresentation))) [] :=
    ((hstart.dispatch _).dispatch _).dispatch _
  obtain ⟨-, -, -, -, hsettle, -⟩ := presentation_stays_apart {} ⟨"/instances", ""⟩ moves
  obtain ⟨hpage, hstate, -⟩ := hsettle backend 0 hs ht rfl
  have hshown : settled.page.snapshot.workflow = some { id := "w" } ∧
      other.page.snapshot.workflow = none ∧ settled.page.snapshot.errorMessage = none ∧
      other.page.snapshot.errorMessage = some "selection 7 does not exist" ∧
      settled.page.snapshot.selections.selectionCount = 1 := by
    decide +kernel
  obtain ⟨hworkflow, hnone, herror, hreported, hcount⟩ := hshown
  exact ⟨hworkflow, hnone, herror, hreported, hcount, hpage, hstate⟩

end LivePage

end InstanceConsole

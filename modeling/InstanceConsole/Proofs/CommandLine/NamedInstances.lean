import InstanceConsole.Proofs.CommandLine.Calls
import InstanceConsole.Proofs.Page.Errors
import InstanceConsole.Proofs.Page.Picks
import InstanceConsole.Proofs.Selection.Toggles

/-!
# Instances named on the command line

A command that adds instances to a selection toggles those that it names, one after the other, on
a page that has just been mounted. The page waits for counts only then, and these leave the toggles
alone. So what is picked in the end are the instances that are named an odd number of times: the
backend is asked for just these, and without any the command is refused,
`asks_for_oddly_named`. Naming an instance twice comes to not naming it at all.
-/

set_option autoImplicit false

namespace InstanceConsole

/-! ## Messages

The message of a refusal for want of a pick begins like no other. -/

namespace PageError

theorem message_fetch_ne (error : ClientError) :
    (fetch error).message ≠ emptySelection.message := by
  intro h
  have hmessage : "failed to fetch instances: " ++ error.message = "no instances are selected" := h
  have hchars := congrArg String.toList hmessage
  rw [String.toList_append] at hchars
  exact absurd (List.cons.inj hchars).1 (by decide)

theorem message_selectionNotFound_ne (id : UInt64) :
    (selectionNotFound id).message ≠ emptySelection.message := by
  intro h
  have hmessage : "selection " ++ Numeral.text id.toNat ++ " does not exist" =
      "no instances are selected" := h
  have hchars := congrArg String.toList hmessage
  rw [String.toList_append, String.toList_append] at hchars
  exact absurd (List.cons.inj hchars).1 (by decide)

end PageError

/-! ## Pages on which instances are picked -/

namespace Page

variable {p : Page} {selections : SelectionList} {fragment : SelectionFragment}

/-- The error shown says that nothing is picked. -/
def ReportsNothingPicked (p : Page) : Prop :=
  p.snapshot.errorMessage = some PageError.emptySelection.message

/-- What a page is like while instances are picked: it has asked for nothing but counts, and
nothing has been refused for want of a pick. -/
structure Picking (p : Page) (selections : SelectionList) (fragment : SelectionFragment) :
    Prop where
  onlyCounts : ∀ fetch ∈ p.fetches, ∃ token criteria, fetch = .count token criteria
  selections : p.snapshot.selections = selections
  fragment : p.snapshot.selection = fragment
  unreported : ¬ p.ReportsNothingPicked

/-- An answer that cannot be used is no refusal. -/
theorem message_ne_of_failure {c : Completion} {error : PageError} (h : p.failure? c = some error) :
    error.message ≠ PageError.emptySelection.message := by
  unfold failure? at h
  split at h
  · split at h
    · obtain rfl := Option.some.inj h
      exact PageError.message_fetch_ne _
    · cases h
  · obtain rfl := Option.some.inj h
    exact PageError.message_fetch_ne _
  · obtain rfl := Option.some.inj h
    exact PageError.message_fetch_ne _
  · split at h
    · obtain rfl := Option.some.inj h
      exact PageError.message_selectionNotFound_ne _
    · cases h
  · cases h

theorem unreported_complete (h : ¬ p.ReportsNothingPicked) (c : Completion) :
    ¬ (p.complete c).ReportsNothingPicked := by
  unfold ReportsNothingPicked
  cases hfailure : p.failure? c with
  | none =>
      rw [errorMessage_complete_of_none hfailure]
      exact h
  | some error =>
      rw [complete_of_failure hfailure]
      exact fun hreport => message_ne_of_failure hfailure (Option.some.inj hreport)

theorem picking_mount (stored : StoredState) (location : Location) :
    (mount stored location).Picking stored.selectionList {} := by
  have hsnapshot := snapshot_readSearch
    { snapshot := .ofStored stored, history := { current := location } } location.search
  refine ⟨?_, congrArg Snapshot.selections hsnapshot, congrArg Snapshot.selection hsnapshot, ?_⟩
  · obtain ⟨issued, hissued, hcounts⟩ := fetches_onLocation
      { snapshot := .ofStored stored, history := { current := location } } location.search
    rw [show (mount stored location).fetches = issued from hissued]
    exact hcounts
  · intro hreport
    rw [ReportsNothingPicked, mount, hsnapshot] at hreport
    cases hreport

theorem Picking.toggle (h : p.Picking selections fragment) (id : String) :
    (p.dispatch (.toggleInstance id)).Picking selections (fragment.toggle id) where
  onlyCounts := h.onlyCounts
  selections := h.selections
  fragment := congrArg (SelectionFragment.toggle · id) h.fragment
  unreported := h.unreported

/-- A count changes nothing that picking is about. -/
theorem Picking.complete_count (h : p.Picking selections fragment) (token : UInt64)
    (result : Except ClientError UInt64) :
    (p.complete (.count token result)).Picking selections fragment where
  onlyCounts := by
    rw [fetches_complete]
    exact h.onlyCounts
  selections := by
    rw [selections_complete]
    exact h.selections
  fragment := by
    rw [← h.fragment]
    simp only [complete, applyCompletion]
    split
    · cases result with
      | ok count =>
          rw [snapshot_store]
          rfl
      | error e => rfl
    · rfl
  unreported := unreported_complete h.unreported _

end Page

namespace LivePage

variable {l : LivePage} {moves : List Move} {selections : SelectionList}
variable {fragment : SelectionFragment}

theorem picking_answer (h : l.page.Picking selections fragment) (number : Nat) (reply : Reply) :
    (l.step (.answer number reply)).page.Picking selections fragment := by
  cases hwaiting : l.waiting? number with
  | none =>
      rw [step_answer_of_none hwaiting]
      exact h
  | some fetch =>
      obtain ⟨token, criteria, rfl⟩ :=
        h.onlyCounts fetch (List.mem_of_getElem? (getElem?_of_waiting? hwaiting))
      rw [step_answer_of_some hwaiting]
      exact h.complete_count token reply.count

/-- In a run whose events toggle instances, all else are answers that leave the picks alone. -/
theorem picking_run {named : List String} (h : l.page.Picking selections fragment)
    (hevents : moves.filterMap Move.event? = named.map .toggleInstance) :
    (l.run moves).page.Picking selections (named.foldl SelectionFragment.toggle fragment) := by
  induction moves generalizing l named fragment with
  | nil =>
      obtain rfl : named = [] := List.map_eq_nil_iff.mp hevents.symm
      exact h
  | cons m moves ih =>
      rw [run_cons]
      cases m with
      | event e =>
          obtain ⟨id, others, rfl, rfl, hothers⟩ := List.map_eq_cons_iff.mp hevents.symm
          rw [List.foldl_cons]
          exact ih (h.toggle id) hothers.symm
      | answer number reply => exact ih (picking_answer h number reply) hevents
      | visit location => exact ih ⟨h.onlyCounts, h.selections, h.fragment, h.unreported⟩ hevents

variable {answers : List Move}

/-- When nothing waits, nothing comes of answers. -/
theorem run_answers_of_idle (hidle : ∀ number, l.waiting? number = none)
    (h : ∀ m ∈ answers, m.IsAnswer) : l.run answers = l := by
  refine run_induction (P := fun next => next = l) (fun next m hm hnext => ?_) rfl
  obtain ⟨number, reply⟩ := h m hm
  rw [hnext, step_answer_of_none (hidle number)]

theorem unreported_run_answers (hreport : ¬ l.page.ReportsNothingPicked)
    (h : ∀ m ∈ answers, m.IsAnswer) :
    ¬ (l.run answers).page.ReportsNothingPicked := by
  refine run_induction (P := fun next => ¬ next.page.ReportsNothingPicked)
    (fun next m hm hnext => ?_) hreport
  obtain ⟨number, reply⟩ := h m hm
  cases hwaiting : next.waiting? number with
  | none =>
      rw [step_answer_of_none hwaiting]
      exact hnext
  | some fetch =>
      rw [step_answer_of_some hwaiting]
      exact Page.unreported_complete hnext _

end LivePage

/-! ## Commands that add instances -/

namespace CommandLine

variable {σ : Type} {selections : SelectionList} {instances : List String} {command : Command}
variable {ask : SelectionPayload → Fetch} {existing : Option Selection}

/-- A command adds the instances that it names: what it asks the backend for, and the selection
that they join, if it is there already. -/
inductive Command.Adds (selections : SelectionList) (instances : List String) :
    Command → (SelectionPayload → Fetch) → Option Selection → Prop
  | new : Adds selections instances (.addSelection instances) .newSelection none
  | extension {id : UInt64} {existing : Selection} (h : selections.get? id = some existing) :
      Adds selections instances (.extendSelection id instances) (.extension id) (some existing)

/-- The page after the last event of a command that adds instances. -/
def added (ask : SelectionPayload → Fetch) (existing : Option Selection) (p : Page) : Page :=
  if p.snapshot.selection.isEmpty then p.showError .emptySelection
  else p.issue (ask (.ofFragment p.snapshot.filter p.snapshot.selection existing))

theorem exists_last_event (h : command.Adds selections instances ask existing) :
    ∃ last, command.events = .ok (pick instances ++ [last]) ∧
      ∀ p : Page, p.snapshot.selections = selections → p.dispatch last = added ask existing p := by
  cases h with
  | new => exact ⟨.addNewSelection, rfl, fun _ _ => rfl⟩
  | @extension id existing hget =>
      refine ⟨.addToSelection id, rfl, ?_⟩
      rintro p rfl
      rw [Page.dispatch, Page.addTo, hget]
      rfl

theorem pick_of_ne_nil (h : instances ≠ []) : pick instances = instances.map .toggleInstance := by
  rw [pick, if_neg (by simpa using h)]

/-- One more event comes after the session has come to rest. -/
theorem session_append_singleton (backend : Backend σ) (stored : Except StoreError StoredState)
    (search : String) (events : List PageEvent) (last : PageEvent) (state : σ) :
    session backend stored search (events ++ [last]) state =
      let before := session backend stored search events state
      (before.1.dispatch last).settle backend before.2 := by
  simp only [session, follow, List.foldl_append, List.foldl_cons, List.foldl_nil]

theorem session_storedOrDefault (backend : Backend σ) (stored : Except StoreError StoredState)
    (search : String) (events : List PageEvent) (state : σ) :
    session backend stored search events state =
      session backend (.ok (storedOrDefault stored)) search events state := rfl

/-- Picking instances ends at rest, on a page on which just the toggled ones are picked. -/
theorem settled_pick (backend : Backend σ) (stored : Except StoreError StoredState)
    (search : String) (state : σ) (hnamed : instances ≠ []) :
    ∃ l : LivePage, (session backend stored search (pick instances) state).1.Settled l ∧
      l.page.Picking (storedOrDefault stored).selectionList
        (instances.foldl SelectionFragment.toggle {}) := by
  rw [session_storedOrDefault]
  have hkeeps : ∀ e ∈ pick instances, (Move.event e).KeepsLocation :=
    fun e he => (keepsLocation_of_mem_pick he).1
  obtain ⟨moves, hmoves, -, hsettled⟩ :=
    settled_session backend (storedOrDefault stored) search state hkeeps
  rw [pick_of_ne_nil hnamed] at hmoves
  exact ⟨_, hsettled, LivePage.picking_run (Page.picking_mount _ _) hmoves⟩

/-- The last event of a command is refused when nothing is picked, and otherwise what is picked is
asked for. No answer changes that any more. -/
theorem page_settle_added {s : Session} {l : LivePage} {last : PageEvent} (h : s.Settled l)
    (hlast : l.page.dispatch last = added ask existing l.page)
    (hunreported : ¬ l.page.ReportsNothingPicked) (backend : Backend σ) (state : σ) :
    let next := ((s.dispatch last).settle backend state).1.page
    let picked := l.page.snapshot.selection
    (picked.isEmpty = true → next = l.page.showError .emptySelection) ∧
    (picked.isEmpty = false → ¬ next.ReportsNothingPicked ∧ next.fetches =
      l.page.fetches ++ [ask (.ofFragment l.page.snapshot.filter picked existing)]) := by
  intro next picked
  obtain ⟨answers, hanswers, hsettled⟩ := h.dispatch last backend state
  have hnext : next = ((l.step (.event last)).run answers).page := hsettled.follows.page
  have hstep : l.step (.event last) = { l with page := added ask existing l.page } :=
    congrArg (LivePage.mk · l.answered) hlast
  rw [hnext, hstep, added]
  constructor
  · intro hempty
    have hidle : ∀ number, LivePage.waiting?
        { l with page := l.page.showError .emptySelection } number = none := h.idle
    rw [if_pos hempty, LivePage.run_answers_of_idle hidle hanswers]
  · intro hpicked
    rw [if_neg (by simpa using hpicked)]
    refine ⟨LivePage.unreported_run_answers hunreported hanswers, ?_⟩
    rw [LivePage.fetches_run_answers hanswers]
    rfl

/-- The session of a command that adds instances, from where they have been picked. -/
theorem session_of_adds (backend : Backend σ) (stored : Except StoreError StoredState)
    (search : String) (state : σ) {events : List PageEvent} (hevents : command.events = .ok events)
    (hadds : command.Adds (storedOrDefault stored).selectionList instances ask existing)
    (hnamed : instances ≠ []) :
    let p := (session backend stored search (pick instances) state).1.page
    let ended := (session backend stored search events state).1.page
    let fragment := instances.foldl SelectionFragment.toggle {}
    p.snapshot.selection = fragment ∧
    (fragment.isEmpty = true → ended.ReportsNothingPicked ∧ ended.fetches = p.fetches) ∧
    (fragment.isEmpty = false → ¬ ended.ReportsNothingPicked ∧
      ended.fetches = p.fetches ++ [ask (.ofFragment p.snapshot.filter fragment existing)]) := by
  intro p ended fragment
  obtain ⟨l, hsettled, hpicking⟩ := settled_pick backend stored search state hnamed
  obtain ⟨last, hlast, hadded⟩ := exists_last_event hadds
  obtain rfl : pick instances ++ [last] = events := Except.ok.inj (hlast.symm.trans hevents)
  have hp : p = l.page := hsettled.follows.page
  have hended : ended = _ := congrArg (·.1.page)
    (session_append_singleton backend stored search (pick instances) last state)
  obtain ⟨hrefused, hasked⟩ := page_settle_added hsettled (hadded l.page hpicking.selections)
    hpicking.unreported backend (session backend stored search (pick instances) state).2
  rw [hpicking.fragment] at hrefused hasked
  rw [hended, hp]
  refine ⟨hpicking.fragment, ?_, hasked⟩
  intro hempty
  dsimp only
  rw [hrefused hempty]
  exact ⟨rfl, rfl⟩

variable {c : Call} {m : Mounting}

theorem Call.session_eq (c : Call) (m : Mounting) (transport : Transport σ) (files : FileTree)
    (state : σ) :
    c.session m transport files state =
      let stored := (stateFile c.environment m.options).get files
      CommandLine.session (m.client.backend transport) stored
        (m.options.query.getD (storedSearch stored)) m.events state := rfl

theorem Call.session_of_adds (transport : Transport σ) (files : FileTree) (state : σ)
    (h : c.mounting? = some m)
    (hadds : m.command.Adds
      (storedOrDefault ((stateFile c.environment m.options).get files)).selectionList
      instances ask existing)
    (hnamed : instances ≠ []) :
    let p := (c.session { m with events := pick instances } transport files state).1.page
    let ended := (c.session m transport files state).1.page
    let fragment := instances.foldl SelectionFragment.toggle {}
    p.snapshot.selection = fragment ∧
    (fragment.isEmpty = true → ended.ReportsNothingPicked ∧ ended.fetches = p.fetches) ∧
    (fragment.isEmpty = false → ¬ ended.ReportsNothingPicked ∧
      ended.fetches = p.fetches ++ [ask (.ofFragment p.snapshot.filter fragment existing)]) := by
  simp only [Call.session_eq]
  exact CommandLine.session_of_adds _ _ _ state (Call.mounting?_eq_some h).2 hadds hnamed

/-- **What a command asks for when it names instances.** Call the console with a command that adds
instances to a new selection, or to one that exists, and that names some. When these have been
picked, just those show as picked that are named an odd number of times. If there are such, the
backend is asked for exactly them, and the call does not end with the error that nothing is picked.
If there are none, the backend is asked for no instances and the call fails with that error. So the
instances that are named are the ones that are picked exactly when each is named an odd number of
times. -/
theorem asks_for_oddly_named (transport : Transport σ) (files : FileTree) (state : σ)
    (h : c.mounting? = some m)
    (hadds : m.command.Adds
      (storedOrDefault ((stateFile c.environment m.options).get files)).selectionList
      instances ask existing)
    (hnamed : instances ≠ []) :
    let picked := (c.session { m with events := pick instances } transport files state).1.page
    let ended := (c.session m transport files state).1.page
    let outcome := (c.run transport files state).1
    (∀ i, picked.snapshot.selection.isSelected i = true ↔ Odd (instances.count i)) ∧
    ((∃ i, Odd (instances.count i)) →
      outcome.error ≠ some PageError.emptySelection.message ∧
      ∃ ids : IdSet, (∀ i, i ∈ ids ↔ Odd (instances.count i)) ∧
        ended.fetches = picked.fetches ++ [ask
          { selectionId := existing.map (·.selectionId)
            queries := (existing.map (·.queries)).getD [] ++
              [{ criteria := { picked.snapshot.filter.criteria with ids := ids.toList } }] }]) ∧
    ((¬ ∃ i, Odd (instances.count i)) →
      outcome.error = some PageError.emptySelection.message ∧ outcome.exitCode = 1 ∧
        ended.fetches = picked.fetches) ∧
    ((∀ i, picked.snapshot.selection.isSelected i = true ↔ i ∈ instances) ↔
      ∀ i ∈ instances, Odd (instances.count i)) := by
  intro picked ended outcome
  let fragment := instances.foldl SelectionFragment.toggle {}
  have hselected : ∀ i, fragment.isSelected i = true ↔ Odd (instances.count i) :=
    SelectionFragment.isSelected_foldl_toggle_empty instances
  have hempty : fragment.isEmpty = true ↔ ¬ ∃ i, Odd (instances.count i) :=
    SelectionFragment.isEmpty_foldl_toggle_empty instances
  have hall : fragment.all = false := SelectionFragment.all_foldl_toggle {} instances
  have hexclude : fragment.excludeIds = .empty :=
    SelectionFragment.excludeIds_foldl_toggle rfl instances
  obtain ⟨hfragment, hrefused, hasked⟩ :=
    Call.session_of_adds transport files state h hadds hnamed
  obtain ⟨-, -, herror⟩ := @Call.run_of_mounting σ c m transport files state h
  have hexit : ∀ message, outcome.error = some message → outcome.exitCode = 1 :=
    fun _ => Call.exitCode_of_error
  -- All that is needed of the call has been said.
  rw [show (c.session { m with events := pick instances } transport files state).1.page = picked
      from rfl] at hfragment hrefused hasked
  rw [show (c.session m transport files state).1.page = ended from rfl] at hrefused hasked herror
  rw [show (c.run transport files state).1 = outcome from rfl] at herror
  clear_value picked ended outcome
  refine ⟨?_, ?_, ?_, ?_⟩
  · intro i
    rw [hfragment]
    exact hselected i
  · intro hodd
    have hpicks : fragment.isEmpty = false := by
      rw [← Bool.not_eq_true, hempty, not_not]
      exact hodd
    obtain ⟨hunreported, hfetches⟩ := hasked hpicks
    refine ⟨fun heq => hunreported (herror.symm.trans heq), fragment.ids, ?_, ?_⟩
    · intro i
      rw [← SelectionFragment.isSelected_iff_mem hall]
      exact hselected i
    · rw [hfetches, SelectionPayload.ofFragment,
        SelectionQuery.ofFragment_of_not_all hall hexclude]
  · intro hnone
    obtain ⟨hreported, hfetches⟩ := hrefused (hempty.mpr hnone)
    have heq : outcome.error = some PageError.emptySelection.message := herror.trans hreported
    exact ⟨heq, hexit _ heq, hfetches⟩
  · rw [hfragment]
    constructor
    · intro hnamed i hi
      exact (hselected i).mp ((hnamed i).mpr hi)
    · intro hodd i
      rw [hselected i]
      exact ⟨fun ⟨k, hk⟩ => List.count_pos_iff.mp (by omega), hodd i⟩

/-- Of two instances the first is named twice, and the second once in between. -/
theorem asks_for_oddly_named_once_of_two :
    let environment : Environment := { files := {}, current := [], home := "/", baseUrl := none }
    let named := ["a", "b", "a"]
    let c : Call := ⟨environment,
      ["select", "add", "--instance", "a", "--instance", "b", "--instance", "a"],
      Domain.plainMapping⟩
    let transport : Transport Unit := fun state _ => (.unanswered, state)
    ∃ m, c.mounting? = some m ∧
      let picked := (c.session { m with events := pick named } transport {} ()).1.page
      (∀ i, picked.snapshot.selection.isSelected i = true ↔ Odd (named.count i)) ∧
        (c.run transport {} ()).1.error ≠ some PageError.emptySelection.message := by
  intro environment named c transport
  have hmounts : c.mounting?.isSome = true := by decide +kernel
  obtain ⟨m, hmounting⟩ := Option.isSome_iff_exists.mp hmounts
  have harguments : Invocation.ofArguments c.arguments = .ok ⟨{}, some (.addSelection named)⟩ := by
    decide +kernel
  have hcommand : m.command = .addSelection named :=
    Option.some.inj (congrArg Invocation.command
      (Except.ok.inj ((Call.mounting?_eq_some hmounting).1.symm.trans harguments)))
  have hadds : ∀ selections, m.command.Adds selections named .newSelection none := by
    rw [hcommand]
    exact fun _ => .new
  obtain ⟨hpicked, hasked, -⟩ :=
    asks_for_oddly_named transport {} () hmounting (hadds _) (by decide)
  exact ⟨m, hmounting, hpicked, (hasked ⟨"b", by decide⟩).1⟩

/-- One instance is named twice, and the command is refused. -/
theorem named_twice_refused :
    let environment : Environment := { files := {}, current := [], home := "/", baseUrl := none }
    let c : Call := ⟨environment, ["select", "add", "--instance", "a", "--instance", "a"],
      Domain.plainMapping⟩
    let transport : Transport Unit := fun state _ => (.unanswered, state)
    c.mounting?.map (·.command) = some (.addSelection ["a", "a"]) ∧
      (c.run transport {} ()).1.error = some PageError.emptySelection.message := by
  decide +kernel

end CommandLine

end InstanceConsole

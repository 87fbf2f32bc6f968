import InstanceConsole.CommandLine.Run
import InstanceConsole.Proofs.Filter.Documents
import InstanceConsole.Proofs.Page.Reopening
import InstanceConsole.Proofs.Store.WholeUpdates

/-!
# Calls of the console that continue each other

One call of the console leaves nothing to the next but the state file. A call that mounts the page
reads the stored filter from there, goes to its location, lets the command work on the page, and
writes what the page has queued. So over any number of calls the filter is what their commands make
of the default filter, one after the other, and every call prints it, `filter_of_calls`.
-/

set_option autoImplicit false

namespace InstanceConsole

/-! ## Updates that are written -/

/-- A query string is of the filter alone, which has no timestamps. -/
theorem StoredState.search_asRead (s : StoredState) : s.asRead.search = s.search := rfl

namespace StateFile

variable {f : StateFile} {t : FileTree} {s : StoredState}

/-- Whether all of some updates in turn are written. -/
def writesAll (f : StateFile) (t : FileTree) : List StatePatch → Bool
  | [] => true
  | patch :: patches =>
      match f.put t patch with
      | (next, .ok ()) => f.writesAll next patches
      | (_, .error _) => false

/-- When all updates are written, the file holds the state with all of them applied, as it is
read. -/
theorem get_writeAll {name : String} (hlast : f.path.steps.getLast? = some (.down name))
    {patches : List StatePatch} (hget : f.get t = .ok s) (hwrites : f.writesAll t patches = true) :
    f.get (CommandLine.writeAll f t patches) = .ok (patches.foldl StoredState.apply s).asRead := by
  induction patches generalizing t s with
  | nil =>
      rw [CommandLine.writeAll, List.foldl_nil, List.foldl_nil, asRead_of_get hget]
      exact hget
  | cons patch patches ih =>
      rw [writesAll] at hwrites
      split at hwrites
      next next hput =>
        obtain ⟨read, hread, hpath, hroom⟩ := room_of_put_eq_ok hlast hput
        obtain rfl : read = s := Except.ok.inj (hread.symm.trans hget)
        obtain ⟨again, hagain, hreplaces⟩ := put_of_get hpath hroom hget patch
        obtain rfl : next = again := congrArg Prod.fst (hput.symm.trans hagain)
        have hnext := hreplaces.holds.get hpath
        rw [CommandLine.writeAll, List.foldl_cons, List.foldl_cons, hput,
          StoredState.asRead_foldl_apply, ← asRead_of_get hnext, ← StoredState.asRead_foldl_apply]
        exact ih hnext hwrites
      · cases hwrites

end StateFile

/-! ## Sessions of a command -/

/-- Answers are no events, and leave the location of the page to the page. -/
theorem Move.of_answers {answers : List Move}
    (h : ∀ m ∈ answers, m.IsAnswer) :
    answers.filterMap Move.event? = [] ∧ ∀ m ∈ answers, m.KeepsLocation := by
  constructor
  · rw [List.filterMap_eq_nil_iff]
    intro m hm
    obtain ⟨number, reply⟩ := h m hm
    rfl
  · intro m hm
    obtain ⟨number, reply⟩ := h m hm
    trivial

namespace CommandLine

variable {σ : Type} {events : List PageEvent}

theorem follow_cons (backend : Backend σ) (s : Session) (state : σ) (e : PageEvent)
    (events : List PageEvent) :
    follow backend s state (e :: events) =
      let settled := (s.dispatch e).settle backend state
      follow backend settled.1 settled.2 events := by
  simp only [follow, List.foldl_cons]

/-- Following events is a run in which these are the events, and the rest are answers. -/
theorem settled_follow {s : Session} {l : LivePage} (h : s.Settled l) (backend : Backend σ)
    (state : σ) (hevents : ∀ e ∈ events, (Move.event e).KeepsLocation) :
    ∃ moves, moves.filterMap Move.event? = events ∧ (∀ m ∈ moves, m.KeepsLocation) ∧
      (follow backend s state events).1.Settled (l.run moves) := by
  induction events generalizing s l state with
  | nil => exact ⟨[], rfl, by simp, h⟩
  | cons e events ih =>
      obtain ⟨answers, hanswers, hsettled⟩ := h.dispatch e backend state
      obtain ⟨hnone, hkeeps⟩ := Move.of_answers hanswers
      obtain ⟨hfirst, hrest⟩ := List.forall_mem_cons.mp hevents
      obtain ⟨moves, hmoves, hlater, hfollowed⟩ :=
        ih hsettled ((s.dispatch e).settle backend state).2 hrest
      refine ⟨.event e :: (answers ++ moves), ?_, ?_, ?_⟩
      · rw [List.filterMap_cons, List.filterMap_append, hnone, hmoves]
        rfl
      · exact List.forall_mem_cons.mpr ⟨hfirst, List.forall_mem_append.mpr ⟨hkeeps, hlater⟩⟩
      · rw [follow_cons, LivePage.run_cons, LivePage.run_append]
        exact hfollowed

theorem session_eq (backend : Backend σ) (stored : StoredState) (search : String)
    (events : List PageEvent) (state : σ) :
    session backend (.ok stored) search events state =
      let settled := (Session.mount stored ⟨instancesPath, search⟩).settle backend state
      follow backend settled.1 settled.2 events := by
  simp only [session, storedOrDefault]

theorem settled_session (backend : Backend σ) (stored : StoredState) (search : String) (state : σ)
    (hevents : ∀ e ∈ events, (Move.event e).KeepsLocation) :
    ∃ moves, moves.filterMap Move.event? = events ∧ (∀ m ∈ moves, m.KeepsLocation) ∧
      (session backend (.ok stored) search events state).1.Settled
        ((LivePage.mount stored ⟨instancesPath, search⟩).run moves) := by
  obtain ⟨answers, hanswers, hsettled⟩ :=
    (Session.follows_mount stored ⟨instancesPath, search⟩).settled rfl backend state
  obtain ⟨hnone, hkeeps⟩ := Move.of_answers hanswers
  obtain ⟨moves, hmoves, hlater, hfollowed⟩ := settled_follow hsettled backend
    ((Session.mount stored ⟨instancesPath, search⟩).settle backend state).2 hevents
  refine ⟨answers ++ moves, ?_, List.forall_mem_append.mpr ⟨hkeeps, hlater⟩, ?_⟩
  · rw [List.filterMap_append, hnone, hmoves]
    rfl
  · rw [session_eq, LivePage.run_append]
    exact hfollowed

/-- **A session ends where its events lead.** Mounted at the location of the stored filter, it ends
with the filter that the events make of that one. Its location carries this filter, and what it
stores is opened with it again. -/
theorem session_reopens (backend : Backend σ) (stored : StoredState) (state : σ)
    (hevents : ∀ e ∈ events, (Move.event e).KeepsLocation) :
    let p := (session backend (.ok stored) stored.search events state).1.page
    p.snapshot.filter = events.foldl PageEvent.filterAfter (.atQuery stored.search) ∧
      Filter.ofQuery p.history.current.search = .ok p.snapshot.filter ∧
      Filter.atQuery (p.writes.foldl StoredState.apply stored).search = p.snapshot.filter := by
  intro p
  obtain ⟨moves, hmoves, hkeeps, hsettled⟩ :=
    settled_session backend stored stored.search state hevents
  have hpage : p = _ := hsettled.follows.page
  have hmount := LivePage.reopens_mount stored instancesPath
  have hreopens := LivePage.reopens_run hmount hkeeps
  rw [hpage]
  refine ⟨?_, ?_, ?_⟩
  · have hfirst : (LivePage.mount stored ⟨instancesPath, stored.search⟩).page.snapshot.filter =
        .atQuery stored.search := Page.filter_readSearch _ _
    rw [LivePage.filter_run hmount.inSync, hmoves, hfirst]
  · obtain ⟨search, hcurrent, hread⟩ := hreopens.inSync
    obtain rfl := Option.some.inj (hcurrent.symm.trans hreopens.shows)
    exact hread
  · have hsearch := hreopens.search
    rw [LivePage.store, StoredState.applyWritten_true] at hsearch
    exact hsearch

/-! ## Commands -/

/-- The filter after a command. -/
def Command.changeFilter (f : Filter) : Command → Filter
  | .filter text =>
      match patchOfText text with
      | .ok patch => if (f.merge patch).isEmpty then .default else f.merge patch
      | .error _ => f
  | .reset => .default
  | _ => f

theorem exists_toPatch_of_patchOfText {text : String} {patch : FilterPatch}
    (h : patchOfText text = .ok patch) : ∃ wire : WireFilter, wire.toPatch = .ok patch := by
  unfold patchOfText at h
  split at h
  · cases h
  next wire hwire =>
    cases hpatch : wire.toPatch with
    | error e => simp [hpatch] at h
    | ok decoded =>
        simp only [hpatch] at h
        split at h
        · cases h
        · obtain rfl := Except.ok.inj h
          exact ⟨wire, hpatch⟩

theorem keepsLocation_of_mem_pick {instances : List String} {e : PageEvent}
    (h : e ∈ pick instances) : (Move.event e).KeepsLocation ∧ ∀ f, e.filterAfter f = f := by
  unfold pick at h
  split at h
  · obtain rfl := List.mem_singleton.mp h
    exact ⟨trivial, fun _ => rfl⟩
  · obtain ⟨id, -, rfl⟩ := List.mem_map.mp h
    exact ⟨trivial, fun _ => rfl⟩

/-- Events that pick instances, and then one more that leaves the filter. -/
theorem foldl_filterAfter_pick {instances : List String} {last : PageEvent}
    (hlast : (Move.event last).KeepsLocation ∧ ∀ f, last.filterAfter f = f) (f : Filter) :
    (∀ e ∈ pick instances ++ [last], (Move.event e).KeepsLocation) ∧
      (pick instances ++ [last]).foldl PageEvent.filterAfter f = f := by
  have hall : ∀ e ∈ pick instances ++ [last],
      (Move.event e).KeepsLocation ∧ ∀ f, e.filterAfter f = f :=
    List.forall_mem_append.mpr ⟨fun _ => keepsLocation_of_mem_pick, by simpa using hlast⟩
  exact ⟨fun e he => (hall e he).1,
    PageEvent.foldl_filterAfter_eq_self fun e he => (hall e he).2 f⟩

/-- The events of a command leave the location to the page, and change a canonical filter as the
command does. -/
theorem foldl_filterAfter_events {command : Command} (h : command.events = .ok events) {f : Filter}
    (hf : f.canonical = f) :
    (∀ e ∈ events, (Move.event e).KeepsLocation) ∧
      events.foldl PageEvent.filterAfter f = command.changeFilter f := by
  cases command with
  | «show» =>
      obtain rfl := Except.ok.inj h
      exact ⟨by simp, rfl⟩
  | filter text =>
      cases hpatch : patchOfText text with
      | error e =>
          rw [Command.events, hpatch] at h
          cases h
      | ok patch =>
          rw [Command.events, hpatch] at h
          obtain rfl := Except.ok.inj h
          obtain ⟨wire, hwire⟩ := exists_toPatch_of_patchOfText hpatch
          -- The ids of the patch have been cut, so nothing is left to cut after the merge.
          have hmerge : (f.merge patch).withSplitIds = f.merge patch := by
            rw [← Filter.canonical_merge]
            exact Filter.canonical_merge_of_toPatch hf hwire
          refine ⟨by simp [Move.KeepsLocation], ?_⟩
          rw [Command.changeFilter, hpatch]
          show PageEvent.filterAfter f (.filterChanged patch) = _
          rw [PageEvent.filterAfter, hmerge]
  | reset =>
      obtain rfl := Except.ok.inj h
      exact ⟨by simp [Move.KeepsLocation], rfl⟩
  | addSelection instances =>
      obtain rfl := Except.ok.inj h
      exact foldl_filterAfter_pick ⟨by trivial, fun _ => rfl⟩ f
  | extendSelection id instances =>
      obtain rfl := Except.ok.inj h
      exact foldl_filterAfter_pick ⟨by trivial, fun _ => rfl⟩ f
  | removeSelection id =>
      obtain rfl := Except.ok.inj h
      exact ⟨by simp [Move.KeepsLocation], rfl⟩

/-! ## Calls -/

/-- A call of the console: what it finds when it starts, its arguments, and how it maps domain
names. The files are those that the calls before have left. -/
structure Call where
  environment : Environment
  arguments : List String
  domains : DomainMapping

/-- What a call mounts the page with. -/
structure Mounting where
  options : Options
  command : Command
  events : List PageEvent
  client : Client

namespace Call

def run (c : Call) (transport : Transport σ) (files : FileTree) (state : σ) : Outcome × σ :=
  CommandLine.run c.domains transport { c.environment with files } c.arguments state

/-- What a call mounts the page with, if it gets that far: its arguments name a command, a patch
among them can be read, and the base URL is one. -/
def mounting? (c : Call) : Option Mounting :=
  match Invocation.ofArguments c.arguments with
  | .ok ⟨options, some command⟩ =>
      let baseUrl := (options.baseUrl <|> c.environment.baseUrl).getD defaultBaseUrl
      match command.events, Client.ofText c.domains baseUrl with
      | .ok events, .ok client => some { options, command, events, client }
      | _, _ => none
  | _ => none

/-- The session of a call that mounts the page. -/
def session (c : Call) (m : Mounting) (transport : Transport σ) (files : FileTree) (state : σ) :
    Session × σ :=
  let stored := (stateFile c.environment m.options).get files
  CommandLine.session (m.client.backend transport) stored
    (m.options.query.getD (storedSearch stored)) m.events state

/-- The filter after a call. A call that does not mount the page has no part in it. -/
def changeFilter (f : Filter) (c : Call) : Filter :=
  (c.mounting?.map fun m => m.command.changeFilter f).getD f

/-- A call keeps the state in a file, and lets the page find its filter there. -/
def KeepsStateIn (c : Call) (file : StateFile) : Prop :=
  ∀ options command, Invocation.ofArguments c.arguments = .ok ⟨options, some command⟩ →
    options.query = none ∧ stateFile c.environment options = file

variable {c : Call} {m : Mounting} {file : StateFile} {transport : Transport σ}
variable {files : FileTree} {state : σ}

theorem mounting?_eq_some (h : c.mounting? = some m) :
    Invocation.ofArguments c.arguments = .ok ⟨m.options, some m.command⟩ ∧
      m.command.events = .ok m.events := by
  unfold mounting? at h
  split at h
  next options command harguments =>
    dsimp only at h
    split at h
    next events client hevents hclient =>
      obtain rfl := Option.some.inj h
      exact ⟨harguments, hevents⟩
    · cases h
  · cases h

theorem stateFile_files (environment : Environment) (options : Options) (files : FileTree) :
    stateFile { environment with files } options = stateFile environment options := rfl

/-- A call that mounts the page prints what it shows in the end, writes what it has queued, and
reports the error that is shown. -/
theorem run_of_mounting (h : c.mounting? = some m) :
    let p := (c.session m transport files state).1.page
    let outcome := (c.run transport files state).1
    outcome.stdout = (report p).pretty ++ "\n" ∧
      outcome.files = writeAll (stateFile c.environment m.options) files p.writes ∧
      outcome.error = p.snapshot.errorMessage := by
  unfold mounting? at h
  split at h
  next options command harguments =>
    dsimp only at h
    split at h
    next events client hevents hclient =>
      obtain rfl := Option.some.inj h
      simp only [run, CommandLine.run, harguments, runCommand, hevents, hclient, session,
        stateFile_files, and_self]
    · cases h
  · cases h

/-- A call that reports an error fails. -/
theorem exitCode_of_error {message : String}
    (h : (c.run transport files state).1.error = some message) :
    (c.run transport files state).1.exitCode = 1 := by
  unfold run CommandLine.run at h ⊢
  cases harguments : Invocation.ofArguments c.arguments with
  | error e =>
      rw [harguments] at h
      cases e with
      | information => cases h
      | misuse => cases h
  | ok invocation =>
      obtain ⟨options, command?⟩ := invocation
      rw [harguments] at h
      cases command? with
      | none => cases h
      | some command =>
          cases hevents : command.events with
          | error e => simp only [runCommand, hevents]
          | ok events =>
              cases hclient : Client.ofText c.domains
                  ((options.baseUrl <|> c.environment.baseUrl).getD defaultBaseUrl) with
              | error e => simp only [runCommand, hevents, hclient]
              | ok client =>
                  simp only [runCommand, hevents, hclient] at h
                  simp only [runCommand, hevents, hclient, h, Option.isSome_some, if_true]

/-- Any other call prints no snapshot, and leaves the files as they are. -/
theorem run_of_not_mounting (h : c.mounting? = none) :
    ((c.run transport files state).1.stdout = "" ∨
        (c.run transport files state).1.stdout = greeting) ∧
      (c.run transport files state).1.files = files := by
  unfold run CommandLine.run
  cases harguments : Invocation.ofArguments c.arguments with
  | error e =>
      cases e with
      | information => exact ⟨.inl rfl, rfl⟩
      | misuse => exact ⟨.inl rfl, rfl⟩
  | ok invocation =>
      obtain ⟨options, command?⟩ := invocation
      cases command? with
      | none => exact ⟨.inr rfl, rfl⟩
      | some command =>
          cases hevents : command.events with
          | error e =>
              simp only [runCommand, hevents, true_or, and_self]
          | ok events =>
              cases hclient : Client.ofText c.domains
                  ((options.baseUrl <|> c.environment.baseUrl).getD defaultBaseUrl) with
              | error e =>
                  simp only [runCommand, hevents, hclient, true_or, and_self]
              | ok client =>
                  simp only [mounting?, harguments, hevents, hclient] at h
                  cases h

/-- The last step of the path to the state leads to its file. -/
theorem getLast?_of_keepsStateIn (hfile : c.KeepsStateIn file) (h : c.mounting? = some m) :
    file.path.steps.getLast? = some (.down stateFileName) := by
  obtain ⟨-, rfl⟩ := hfile _ _ (mounting?_eq_some h).1
  simp [stateFile, Path.child]

/-- A call that finds a state in its file changes the filter of that state as its command does. -/
theorem session_changes_filter (transport : Transport σ) (state : σ)
    (hfile : c.KeepsStateIn file) (h : c.mounting? = some m) {stored : StoredState}
    (hget : file.get files = .ok stored) :
    let p := (c.session m transport files state).1.page
    let f := m.command.changeFilter (.atQuery stored.search)
    p.snapshot.filter = f ∧ Filter.ofQuery p.history.current.search = .ok f ∧
      Filter.atQuery (p.writes.foldl StoredState.apply stored).search = f := by
  obtain ⟨harguments, hevents⟩ := mounting?_eq_some h
  obtain ⟨hquery, hpath⟩ := hfile _ _ harguments
  have hsession : c.session m transport files state = CommandLine.session
      (m.client.backend transport) (.ok stored) stored.search m.events state := by
    rw [session, hpath, hget, hquery]
    rfl
  obtain ⟨hkeeps, hfold⟩ :=
    foldl_filterAfter_events hevents (Filter.canonical_atQuery stored.search).1
  obtain ⟨hfilter, hlocated, hreopens⟩ :=
    session_reopens (m.client.backend transport) stored state hkeeps
  rw [hsession]
  rw [hfold] at hfilter
  rw [hfilter] at hlocated hreopens
  exact ⟨hfilter, hlocated, hreopens⟩

end Call

/-! ## Calls in turn -/

/-- Calls of the console in turn on one state file, which is missing at first, with all that they
write being written; the files and the state of the backend that they leave. -/
inductive Ran (transport : Transport σ) (file : StateFile) : FileTree → σ → List Call → Prop
  | start {files : FileTree} {state : σ}
      (hmissing : files.read file.current file.path = .error .notFound) :
      Ran transport file files state []
  | call {files : FileTree} {state : σ} {calls : List Call} {c : Call}
      (h : Ran transport file files state calls) (hfile : c.KeepsStateIn file)
      (hwrites : ∀ m ∈ c.mounting?,
        file.writesAll files (c.session m transport files state).1.page.writes = true) :
      Ran transport file (c.run transport files state).1.files (c.run transport files state).2
        (calls ++ [c])

/-- The filter after calls in turn. -/
def filterAfter (calls : List Call) : Filter := calls.foldl Call.changeFilter .default

theorem filterAfter_append (calls : List Call) (c : Call) :
    filterAfter (calls ++ [c]) = c.changeFilter (filterAfter calls) := by
  simp [filterAfter]

variable {transport : Transport σ} {file : StateFile} {files : FileTree} {state : σ}
variable {calls : List Call} {c : Call}

/-- Calls in turn leave a state that is opened with the filter after them. -/
theorem Ran.get_eq_ok (h : Ran transport file files state calls) :
    ∃ stored, file.get files = .ok stored ∧ Filter.atQuery stored.search = filterAfter calls := by
  induction h with
  | start hmissing =>
      refine ⟨{}, ?_, Filter.atQuery_empty⟩
      rw [StateFile.get, hmissing]
  | @call files state calls c h hfile hwrites ih =>
      obtain ⟨stored, hget, hsearch⟩ := ih
      rw [filterAfter_append, ← hsearch]
      cases hmounting : c.mounting? with
      | none =>
          rw [(c.run_of_not_mounting hmounting).2, Call.changeFilter, hmounting]
          exact ⟨stored, hget, rfl⟩
      | some m =>
          have hpath := (hfile _ _ (Call.mounting?_eq_some hmounting).1).2
          have hlast := Call.getLast?_of_keepsStateIn hfile hmounting
          obtain ⟨-, -, hreopens⟩ :=
            Call.session_changes_filter transport state hfile hmounting hget
          rw [(Call.run_of_mounting hmounting).2.1, hpath, Call.changeFilter, hmounting]
          have hwritten := hwrites m (Option.mem_def.mpr hmounting)
          refine ⟨_, StateFile.get_writeAll hlast hget hwritten, ?_⟩
          rw [StoredState.search_asRead]
          exact hreopens

/-- The names in what is printed are different, and two of them are those of the query string and
of the filter. -/
theorem members_report (p : Page) :
    ∃ members, report p = .record members ∧ (members.map Prod.fst).Nodup ∧
      members.lookup "search" = some (.text p.history.current.search) ∧
      members.lookup "filter" = some p.snapshot.filter.toJson := by
  refine ⟨_, rfl, ?_, rfl, rfl⟩
  simp [Snapshot.members, SelectionList.members]

/-- **Calls of the console continue each other.** Call it any number of times on one state file,
which is missing at first, with everything written that the calls before have queued, and with a
backend that answers anything. A call that mounts the page prints a snapshot. In it stands the
filter that the commands of these calls, this one included, make of the default filter one after
the other, and a query string that carries this filter. Any other call prints no snapshot. -/
theorem filter_of_calls (h : Ran transport file files state calls) (hfile : c.KeepsStateIn file) :
    let stdout := (c.run transport files state).1.stdout
    let f := filterAfter (calls ++ [c])
    (∀ m, c.mounting? = some m → ∃ members, Json.read stdout = some (.record members) ∧
      (members.map Prod.fst).Nodup ∧ (members.lookup "filter").bind Filter.ofJson? = some f ∧
      ∃ search, members.lookup "search" = some (.text search) ∧ Filter.ofQuery search = .ok f) ∧
    (c.mounting? = none → stdout = "" ∨ stdout = greeting) := by
  intro stdout f
  obtain ⟨stored, hget, hsearch⟩ := h.get_eq_ok
  constructor
  · intro m hmounting
    obtain ⟨hfilter, hlocated, -⟩ :=
      Call.session_changes_filter transport state hfile hmounting hget
    obtain ⟨members, hreport, hnodup, hlookup, hprinted⟩ :=
      members_report (c.session m transport files state).1.page
    have hf : f = m.command.changeFilter (.atQuery stored.search) := by
      rw [hsearch]
      show filterAfter (calls ++ [c]) = _
      rw [filterAfter_append, Call.changeFilter, hmounting]
      rfl
    have hstdout : stdout = (Json.record members).pretty ++ "\n" := by
      rw [← hreport]
      exact (Call.run_of_mounting hmounting).1
    refine ⟨members, ?_, hnodup, ?_, _, hlookup, ?_⟩
    · rw [hstdout, Json.read_pretty_newline]
    · rw [hprinted, Option.bind_some, Filter.ofJson?_toJson, hfilter, hf]
    · rw [hlocated, hf]
  · intro hmounting
    exact (c.run_of_not_mounting hmounting).1

/-- A call that sets a flag of the filter, and one that shows the page then. -/
theorem filter_of_calls_filter_show :
    let environment : Environment := { files := {}, current := [], home := "/", baseUrl := none }
    let set : Call := ⟨environment, ["--data-dir", "data", "filter", "\x7b\"completed\":true\x7d"],
      Domain.plainMapping⟩
    let look : Call := ⟨environment, ["--data-dir", "data", "show"], Domain.plainMapping⟩
    let transport : Transport Unit := fun state _ => (.unanswered, state)
    let files := (set.run transport {} ()).1.files
    ∃ members, Json.read (look.run transport files ()).1.stdout = some (.record members) ∧
      (members.lookup "filter").bind Filter.ofJson? =
        some { Filter.default with completed := some true } := by
  intro environment set look transport files
  let file : StateFile := stateFile environment { dataDir := some "data" }
  have hkeeps : ∀ command arguments, Invocation.ofArguments arguments =
      .ok ⟨{ dataDir := some "data" }, some command⟩ →
        Call.KeepsStateIn ⟨environment, arguments, Domain.plainMapping⟩ file := by
    intro command arguments harguments options other hother
    rw [harguments] at hother
    cases hother
    exact ⟨rfl, rfl⟩
  have hset : set.KeepsStateIn file :=
    hkeeps (.filter "\x7b\"completed\":true\x7d") _ (by decide +kernel)
  have hlook : look.KeepsStateIn file := hkeeps .show _ (by decide +kernel)
  have hwrites : ∀ m ∈ set.mounting?,
      file.writesAll {} (set.session m transport {} ()).1.page.writes = true := by
    decide +kernel
  have hran : Ran transport file files () [set] := .call (.start rfl) hset hwrites
  have hfilter : filterAfter [set, look] = { Filter.default with completed := some true } := by
    decide +kernel
  have hmounts : look.mounting?.isSome = true := by decide +kernel
  obtain ⟨m, hmounting⟩ := Option.isSome_iff_exists.mp hmounts
  obtain ⟨members, hread, -, hprinted, -⟩ := (filter_of_calls hran hlook).1 m hmounting
  refine ⟨members, hread, ?_⟩
  rw [← hfilter]
  exact hprinted

end CommandLine

end InstanceConsole

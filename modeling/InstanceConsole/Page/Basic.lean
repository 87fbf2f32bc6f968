import InstanceConsole.Filter.Query
import InstanceConsole.Page.Event
import InstanceConsole.Page.RequestSequence

/-!
# The instances page

The page owns its snapshot, and takes one event or completion at a time. What it asks of the rest
of the world it only records: the fetches that it issues, and the updates of the store that it
queues, both in order. The filter always is the one in the query string; a location whose query
string has none is left for one with the default filter.
-/

set_option autoImplicit false

namespace InstanceConsole

structure Page where
  snapshot : Snapshot
  history : History
  /-- The numbers of the fetches that count the instances of the filter. -/
  counts : RequestSequence := {}
  /-- The query string that the filter was read from. -/
  currentSearch : Option String := none
  /-- How many fetches have not been completed. -/
  inFlight : Nat := 0
  /-- The fetches issued so far. -/
  fetches : List Fetch := []
  /-- The updates of the store queued so far. -/
  writes : List StatePatch := []
  deriving DecidableEq, Repr

namespace Page

/-! ## Small steps -/

def issue (p : Page) (fetch : Fetch) : Page :=
  { p with fetches := p.fetches ++ [fetch], inFlight := p.inFlight + 1 }

/-- Queues an update of the store, unless it changes nothing. -/
def store (p : Page) (patch : StatePatch) : Page :=
  if patch.isEmpty then p else { p with writes := p.writes ++ [patch] }

def showError (p : Page) (error : PageError) : Page :=
  { p with snapshot := p.snapshot.withError error }

/-- Takes a next snapshot, or shows why there is none. -/
def commit (p : Page) : Except PageError Snapshot → Page
  | .ok snapshot => { p with snapshot }
  | .error error => p.showError error

/-- Takes a next snapshot and stores its selections, or shows why there is none. -/
def commitSelections (p : Page) : Except PageError Snapshot → Page
  | .ok snapshot => { p with snapshot }.store (.ofSelections snapshot.selections)
  | .error error => p.showError error

/-! ## The filter and the query string -/

/-- Asks how many instances meet the filter. -/
def countFilter (p : Page) : Page :=
  let (token, counts) := p.counts.issue
  { p with counts }.issue (.count token p.snapshot.filter.criteria)

/-- Visits the location with a filter in its query string. -/
def pushFilter (p : Page) (filter : Filter) : Page :=
  { p with history := p.history.push ⟨p.history.current.pathname, filter.toQuery⟩ }

/-- Takes the filter that a query string carries. Without one, takes the default filter and
visits the location that has it. -/
def readSearch (p : Page) (search : String) : Page :=
  match Filter.ofQuery search with
  | .ok filter =>
      { p with currentSearch := some search, snapshot := p.snapshot.withFilter filter }.countFilter
  | .error _ =>
      let pushed := p.pushFilter .default
      { pushed with
        currentSearch := some Filter.default.toQuery
        snapshot := p.snapshot.withFilter .default }.countFilter

/-- Reads a query string, unless the filter was read from the same one. -/
def onLocation (p : Page) (search : String) : Page :=
  if p.currentSearch = some search then p else p.readSearch search

/-- Visits the location of a filter, reads it, and stores the filter that the page then has. -/
def applyFilter (p : Page) (filter : Filter) : Page :=
  let moved := (p.pushFilter filter).onLocation filter.toQuery
  moved.store (.ofFilter moved.snapshot.filter)

/-- The filter after a change; the default one when nothing is set any more. -/
def changedFilter (p : Page) (patch : FilterPatch) : Filter :=
  let merged := p.snapshot.filter.merge patch
  if merged.isEmpty then .default else merged

/-! ## Selections -/

/-- Asks for the instances of a new selection. -/
def addNew (p : Page) : Page :=
  if p.snapshot.selection.isEmpty then p.showError .emptySelection
  else p.issue (.newSelection (.ofFragment p.snapshot.filter p.snapshot.selection none))

/-- Asks for the instances of a selection together with the selection in progress. -/
def addTo (p : Page) (id : UInt64) : Page :=
  match p.snapshot.selections.get? id with
  | none => p.showError (.selectionNotFound id)
  | some existing =>
      if p.snapshot.selection.isEmpty then p.showError .emptySelection
      else p.issue
        (.extension id (.ofFragment p.snapshot.filter p.snapshot.selection (some existing)))

/-! ## Events and completions -/

/-- The page once its stored state and its location are known. -/
def mount (stored : StoredState) (location : Location) : Page :=
  readSearch { snapshot := .ofStored stored, history := { current := location } } location.search

def dispatch (p : Page) : PageEvent → Page
  | .locationChanged location => p.onLocation location.search
  | .filterChanged patch => p.applyFilter (p.changedFilter patch)
  | .filterReset => p.applyFilter .default
  | .workflowChanged workflow => p.commit (.ok (p.snapshot.withWorkflow workflow))
  | .flowNodesReady nodes => p.commit (.ok (p.snapshot.withFlowNodes nodes))
  | .updateSelection fragment => p.commit (.ok (p.snapshot.withFragment fragment))
  | .toggleInstance id =>
      p.commit (.ok (p.snapshot.withFragment (p.snapshot.selection.toggle id)))
  | .selectAll => p.commit (.ok (p.snapshot.withFragment p.snapshot.selection.selectAll))
  | .addNewSelection => p.addNew
  | .addToSelection id => p.addTo id
  | .addToOpenSelection =>
      match p.snapshot.openSelection with
      | none => p.showError .noOpenSelection
      | some id => p.addTo id
  | .toggleOpenSelection id => p.commit (p.snapshot.withOpenToggled id)
  | .removeSelection id => p.commitSelections (p.snapshot.withoutSelection id)
  | .dismissError => p.commit (.ok p.snapshot.withoutError)

/-- The page after a fetch has been answered. A count that is not the latest changes nothing
more. -/
def applyCompletion (p : Page) : Completion → Page
  | .count token result =>
      if p.counts.isLatest token then
        match result with
        | .ok count =>
            { p with snapshot := p.snapshot.withFilterCount count }.store (.ofFilterCount count)
        | .error error => p.showError (.fetch error)
      else p
  | .newSelection payload result =>
      p.commitSelections <| match result with
        | .ok details => .ok (p.snapshot.withNewSelection payload details)
        | .error error => .error (.fetch error)
  | .extension id payload result =>
      p.commitSelections <| match result with
        | .ok details => p.snapshot.withMergedSelection id payload details
        | .error error => .error (.fetch error)

/-- The answer to a fetch has come. -/
def complete (p : Page) (completion : Completion) : Page :=
  { p with inFlight := p.inFlight - 1 }.applyCompletion completion

def handle (p : Page) : PageMessage → Page
  | .event event => p.dispatch event
  | .completion completion => p.complete completion

end Page

end InstanceConsole

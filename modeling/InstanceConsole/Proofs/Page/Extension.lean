import InstanceConsole.Proofs.Page.Run

/-!
# Extensions of a selection

A request to extend a selection takes along the queries that the selection has then. Its answer
puts those, and the one that was appended, in the place of the queries that the selection has by
that time. So of two requests that are out at the same time one does not know of the other, and
the later answer undoes the earlier one. A request that is the only one out when it is answered
loses nothing, and nothing that it leaves is lost.
-/

set_option autoImplicit false

namespace InstanceConsole

/-- An event asks for the extension of a selection. -/
def PageEvent.AsksFor (p : Page) (k : UInt64) (e : PageEvent) : Prop :=
  e = .addToSelection k ∨ e = .addToOpenSelection ∧ p.snapshot.openSelection = some k

/-- The query that an extension appends. -/
def Page.pickedQuery (p : Page) : SelectionQuery :=
  .ofFragment p.snapshot.filter p.snapshot.selection

/-- The queries of a selection; none where there is no selection. -/
def Page.queriesOf (p : Page) (k : UInt64) : List SelectionQuery :=
  ((p.snapshot.selections.get? k).map (·.queries)).getD []

/-- A move that leaves a selection in the list and creates none, and answers no fetch from before
some number. -/
def Move.Spares (k : UInt64) (first : Nat) : Move → Prop
  | .event (.removeSelection id) => id ≠ k
  | .event .addNewSelection => False
  | .event _ => True
  | .answer number _ => first ≤ number
  | .visit _ => True

namespace LivePage

/-- A selection begins with some queries, and so does every extension of it that is asked for. -/
structure Keeps (k : UInt64) (first : Nat) (base : List SelectionQuery) (l : LivePage) : Prop where
  kept : ∃ s, l.page.snapshot.selections.get? k = some s ∧ base <+: s.queries
  asked : ∀ number payload, first ≤ number →
    l.waiting? number = some (.extension k payload) → base <+: payload.queries
  none_new : ∀ number payload, first ≤ number → l.waiting? number ≠ some (.newSelection payload)

/-! ## One move -/

variable {k : UInt64} {first : Nat} {base : List SelectionQuery} {l : LivePage}

theorem spares_edit? {e : PageEvent} (h : (Move.event e).Spares k first) :
    ∀ edit ∈ e.edit?.toList, edit.Spares k := by
  cases e with
  | removeSelection id =>
      intro edit hedit
      obtain rfl : edit = .remove id := by simpa [PageEvent.edit?] using hedit
      exact h
  | _ => simp [PageEvent.edit?]

theorem Keeps.event {e : PageEvent} (h : l.Keeps k first base)
    (hspares : (Move.event e).Spares k first) : (l.step (.event e)).Keeps k first base := by
  have hget : (l.page.dispatch e).snapshot.selections.get? k =
      l.page.snapshot.selections.get? k := by
    rw [Page.selections_dispatch, SelectionList.get?_edits_of_spares (spares_edit? hspares)]
  obtain ⟨s, hs, hbase⟩ := h.kept
  refine ⟨⟨s, hget.trans hs, hbase⟩, ?_, ?_⟩
  · intro number payload hfirst hwaiting
    rcases waiting?_event hwaiting with hold | ⟨token, criteria, hcount⟩ | hissued
    · exact h.asked number payload hfirst hold
    · cases hcount
    · -- What is asked for now takes along the queries of now.
      obtain ⟨existing, hexisting, rfl⟩ := hissued
      obtain rfl := Option.some.inj (hexisting.symm.trans hs)
      exact hbase.trans (List.prefix_append _ _)
  · intro number payload hfirst hwaiting
    rcases waiting?_event hwaiting with hold | ⟨token, criteria, hcount⟩ | hissued
    · exact h.none_new number payload hfirst hold
    · cases hcount
    · rw [show e = .addNewSelection from hissued] at hspares
      exact hspares

theorem edit?_extension (id : UInt64) (payload : SelectionPayload) {reply : Reply}
    {details : InstancesDetails} (h : reply.details = .ok details) :
    ((Fetch.extension id payload).completion reply).edit? = some (.merge id payload details) := by
  simp only [Fetch.completion, h, Completion.edit?]

/-- The answer to an extension puts the queries of its payload in the place of all others. -/
theorem get?_extended {p : Page} {s : Selection} (hs : p.snapshot.selections.get? k = some s)
    (payload : SelectionPayload) {reply : Reply} {details : InstancesDetails}
    (h : reply.details = .ok details) :
    (p.complete ((Fetch.extension k payload).completion reply)).snapshot.selections.get? k =
      some (s.merged payload details) := by
  rw [Page.selections_complete, edit?_extension k payload h]
  exact SelectionList.get?_edit_merge hs payload details

theorem Keeps.complete {number : Nat} {fetch : Fetch} (h : l.Keeps k first base)
    (hfirst : first ≤ number) (hw : l.waiting? number = some fetch) (reply : Reply) :
    ∃ s, (l.page.complete (fetch.completion reply)).snapshot.selections.get? k = some s ∧
      base <+: s.queries := by
  obtain ⟨s, hs, hbase⟩ := h.kept
  have hspared : (∀ edit ∈ (fetch.completion reply).edit?.toList, edit.Spares k) →
      ∃ s, (l.page.complete (fetch.completion reply)).snapshot.selections.get? k = some s ∧
        base <+: s.queries := by
    intro hedit
    rw [Page.selections_complete, SelectionList.get?_edits_of_spares hedit]
    exact ⟨s, hs, hbase⟩
  cases fetch with
  | count token criteria => exact hspared (by simp [Fetch.completion, Completion.edit?])
  | newSelection payload => exact absurd hw (h.none_new number payload hfirst)
  | extension id payload =>
      -- An answer for the selection brings the queries of its payload, any other spares it.
      cases hreply : reply.details with
      | error e => exact hspared (by simp [Fetch.completion, hreply, Completion.edit?])
      | ok details =>
          by_cases hid : id = k
          · subst hid
            exact ⟨_, get?_extended hs payload hreply, h.asked number payload hfirst hw⟩
          · refine hspared ?_
            rw [edit?_extension id payload hreply]
            intro edit hedit
            obtain rfl : edit = .merge id payload details := by simpa using hedit
            exact hid

theorem Keeps.answer {number : Nat} (h : l.Keeps k first base) (hfirst : first ≤ number)
    (reply : Reply) : (l.step (.answer number reply)).Keeps k first base := by
  refine ⟨?_, ?_, ?_⟩
  · cases hw : l.waiting? number with
    | none =>
        rw [step_answer_of_none hw]
        exact h.kept
    | some fetch =>
        rw [step_answer_of_some hw]
        exact h.complete hfirst hw reply
  · intro other payload hother hwaiting
    exact h.asked other payload hother (waiting?_answer hwaiting).1
  · intro other payload hother hwaiting
    exact h.none_new other payload hother (waiting?_answer hwaiting).1

theorem Keeps.step {m : Move} (h : l.Keeps k first base) (hspares : m.Spares k first) :
    (l.step m).Keeps k first base := by
  cases m with
  | event e => exact h.event hspares
  | answer number reply => exact h.answer hspares reply
  | visit location => exact ⟨h.kept, h.asked, h.none_new⟩

/-! ## Runs -/

theorem Keeps.run {moves : List Move} (h : l.Keeps k first base)
    (hspares : ∀ m ∈ moves, m.Spares k first) : (l.run moves).Keeps k first base :=
  run_induction (fun _ m hm hl => hl.step (hspares m hm)) h

/-- Nothing that was asked for after all fetches so far waits yet. -/
theorem keeps_start {s : Selection} (hs : l.page.snapshot.selections.get? k = some s) :
    l.Keeps k l.page.fetches.length s.queries := by
  have hnone : ∀ number fetch, l.page.fetches.length ≤ number →
      l.waiting? number ≠ some fetch := by
    intro number fetch hnumber hwaiting
    have hget := getElem?_of_waiting? hwaiting
    rw [List.getElem?_eq_none hnumber] at hget
    cases hget
  refine ⟨⟨s, hs, List.prefix_refl _⟩, ?_, ?_⟩
  · intro number payload hnumber hwaiting
    exact absurd hwaiting (hnone number _ hnumber)
  · intro number payload hnumber
    exact hnone number _ hnumber

end LivePage

/-! ## Requests -/

/-- A request in the course of a run: an event after some moves, and after some more moves the
answer to what the event asked for. -/
structure ExtensionRequest where
  before : List Move
  event : PageEvent
  between : List Move
  reply : Reply

namespace ExtensionRequest

variable (r : ExtensionRequest) (start : LivePage) (k : UInt64)

/-- The page when the event comes. -/
def sent : LivePage := start.run r.before

/-- The number of the fetch that the event issues. -/
def number : Nat := (r.sent start).page.fetches.length

/-- The page when the answer comes. -/
def due : LivePage := ((r.sent start).step (.event r.event)).run r.between

/-- The page after the answer. -/
def done : LivePage := (r.due start).step (.answer (r.number start) r.reply)

/-- All moves up to the answer. -/
def moves : List Move :=
  r.before ++ .event r.event :: (r.between ++ [.answer (r.number start) r.reply])

/-- The request asks for the extension of a selection, and succeeds. -/
structure Extends : Prop where
  asks : r.event.AsksFor (r.sent start).page k
  picked : (r.sent start).page.snapshot.selection.isEmpty = false
  waits : ((r.due start).waiting? (r.number start)).isSome = true
  succeeds : ∃ details, r.reply.details = .ok details

/-- No other request for the selection, of those made since the start, is out when the answer
comes. -/
def Alone : Prop :=
  ∀ number payload, start.page.fetches.length ≤ number →
    (r.due start).waiting? number = some (.extension k payload) → number = r.number start

theorem run_moves : start.run (r.moves start) = r.done start := by
  rw [moves, LivePage.run_append, LivePage.run_cons, LivePage.run_append]
  rfl

end ExtensionRequest

theorem Page.fetches_of_asksFor {p : Page} {e : PageEvent} {k : UInt64} {s : Selection}
    (hasks : e.AsksFor p k) (hs : p.snapshot.selections.get? k = some s)
    (hpicked : p.snapshot.selection.isEmpty = false) :
    (p.dispatch e).fetches = p.fetches ++
      [.extension k (.ofFragment p.snapshot.filter p.snapshot.selection (some s))] := by
  have haddTo : (p.addTo k).fetches = p.fetches ++
      [.extension k (.ofFragment p.snapshot.filter p.snapshot.selection (some s))] := by
    unfold addTo
    rw [hs]
    simp only [hpicked]
    rfl
  rcases hasks with rfl | ⟨rfl, hopen⟩
  · exact haddTo
  · simp only [dispatch, hopen]
    exact haddTo

namespace ExtensionRequest

variable {r : ExtensionRequest} {start : LivePage} {k : UInt64}

/-- When the answer is due, the fetch that waits for it has the queries of the time when it was
asked for, and the one that it appends. -/
theorem waiting?_due {s : Selection} (h : r.Extends start k)
    (hs : (r.sent start).page.snapshot.selections.get? k = some s) :
    ∃ payload, (r.due start).waiting? (r.number start) = some (.extension k payload) ∧
      payload.queries = s.queries ++ [(r.sent start).page.pickedQuery] := by
  -- The fetch has the number of the first one that the event issues, and keeps it.
  have hissued := Page.fetches_of_asksFor h.asks hs h.picked
  obtain ⟨later, hlater⟩ := ((r.sent start).step (.event r.event)).fetches_run r.between
  obtain ⟨fetch, hfetch⟩ := Option.isSome_iff_exists.mp h.waits
  have hget := LivePage.getElem?_of_waiting? hfetch
  refine ⟨.ofFragment (r.sent start).page.snapshot.filter (r.sent start).page.snapshot.selection
    (some s), ?_, rfl⟩
  rw [hfetch, ← hget]
  show (r.due start).page.fetches[r.number start]? = _
  unfold due
  rw [← hlater]
  show (((r.sent start).page.dispatch r.event).fetches ++ later)[_]? = _
  rw [hissued, number, List.append_assoc, List.getElem?_append_right (Nat.le_refl _), Nat.sub_self]
  rfl

/-- The moves of a request spare a selection, so the selection is there when the request is made
and when its answer is due. -/
theorem keeps_due {base : List SelectionQuery} {first : Nat} (h : start.Keeps k first base)
    (hspares : ∀ m ∈ r.moves start, m.Spares k first) :
    (r.sent start).Keeps k first base ∧ (r.due start).Keeps k first base := by
  have hsent : (r.sent start).Keeps k first base :=
    h.run fun m hm => hspares m (by simp [moves, hm])
  refine ⟨hsent, ?_⟩
  exact (hsent.step (hspares _ (by simp [moves]))).run fun m hm => hspares m (by simp [moves, hm])

/-- A request that is alone when its answer is due leaves nothing behind that could undo it. -/
theorem keeps_done {first : Nat} {base : List SelectionQuery} {payload : SelectionPayload}
    {t : Selection} (hdue : (r.due start).Keeps k first base)
    (ht : (r.done start).page.snapshot.selections.get? k = some t)
    (hqueries : t.queries = payload.queries)
    (halone : ∀ number payload, first ≤ number →
      (r.due start).waiting? number = some (.extension k payload) → number = r.number start) :
    (r.done start).Keeps k first payload.queries := by
  refine ⟨⟨t, ht, ?_⟩, ?_, ?_⟩
  · exact ⟨[], by rw [List.append_nil, hqueries]⟩
  · -- Whatever waits for the selection now waited before, when only this request did.
    intro number other hnumber hwaiting
    obtain ⟨hbefore, hne⟩ := LivePage.waiting?_answer hwaiting
    exact absurd (halone number other hnumber hbefore) hne
  · intro number other hnumber hwaiting
    exact hdue.none_new number other hnumber (LivePage.waiting?_answer hwaiting).1

end ExtensionRequest

namespace LivePage

/-- **What is kept of the extensions of a selection.** Take any run from any page in which the
selection is not removed. It keeps the queries that the selection had. A request that succeeds
leaves the queries that the selection had when it was made, and the one that it appends. If no
other request for the selection is out by then, the query that it appends is kept from then on. -/
theorem extensions_kept (start : LivePage) (k : UInt64) (window : List Move) (s : Selection)
    (hs : start.page.snapshot.selections.get? k = some s)
    (hwindow : ∀ m ∈ window, m.Spares k start.page.fetches.length) :
    (∃ t, (start.run window).page.snapshot.selections.get? k = some t ∧
      s.queries <+: t.queries) ∧
    ∀ r : ExtensionRequest, r.moves start <+: window → r.Extends start k →
      (r.done start).page.queriesOf k =
        (r.sent start).page.queriesOf k ++ [(r.sent start).page.pickedQuery] ∧
      (r.Alone start k →
        (r.sent start).page.pickedQuery ∈ (start.run window).page.queriesOf k) := by
  have hstart := keeps_start hs
  refine ⟨(hstart.run hwindow).kept, ?_⟩
  -- The selection is there when the request is made and when its answer is due.
  rintro r ⟨after, rfl⟩ hr
  obtain ⟨hsent, hdue⟩ := r.keeps_due hstart fun m hm => hwindow m (by simp [hm])
  obtain ⟨u, hu, -⟩ := hsent.kept
  obtain ⟨v, hv, -⟩ := hdue.kept
  obtain ⟨payload, hwaiting, hpayload⟩ := r.waiting?_due hr hu
  obtain ⟨details, hdetails⟩ := hr.succeeds
  have hdone : (r.done start).page.snapshot.selections.get? k =
      some (v.merged payload details) := by
    unfold ExtensionRequest.done
    rw [step_answer_of_some hwaiting]
    exact get?_extended hv payload hdetails
  have hqueries : (v.merged payload details).queries = payload.queries := rfl
  constructor
  · unfold Page.queriesOf
    rw [hdone, hu, Option.map_some, hqueries, hpayload]
    rfl
  · intro halone
    -- From the answer on the invariant holds with the queries that it brought.
    have hkeeps : ((r.done start).run after).Keeps k start.page.fetches.length payload.queries :=
      (r.keeps_done hdue hdone hqueries halone).run fun m hm => hwindow m (by simp [hm])
    obtain ⟨t, ht, hbase⟩ := hkeeps.kept
    unfold Page.queriesOf
    rw [run_append, r.run_moves, ht]
    refine hbase.subset ?_
    rw [hpayload]
    simp

end LivePage

/-! ## One request, and two at a time -/

namespace ExtensionRequest

/-- A page with a selection that has no queries yet. -/
def onePage : LivePage :=
  .mount { selections := [{ selectionId := 1, totalCount := 0 }] } ⟨"/instances", ""⟩

/-- The user picks a single instance. -/
def pickOnly (id : String) : Move := .event (.updateSelection { ids := ⟨[id], by simp⟩ })

def oneInstance : Reply := { count := .ok 0, details := .ok { totalCount := 1 } }

/-- A request that is answered before anything else happens. -/
def lone : ExtensionRequest where
  before := [pickOnly "a"]
  event := .addToSelection 1
  between := []
  reply := oneInstance

theorem extensions_kept_lone :
    (lone.sent onePage).page.pickedQuery ∈
      (onePage.run (lone.moves onePage)).page.queriesOf 1 := by
  have hlength : onePage.page.fetches.length = 1 := by decide
  have hmoves : lone.moves onePage =
      [pickOnly "a", .event (.addToSelection 1), .answer 1 oneInstance] := rfl
  have hwindow : ∀ m ∈ lone.moves onePage, m.Spares 1 onePage.page.fetches.length := by
    intro m hm
    rw [hlength]
    simp only [hmoves, List.mem_cons, List.not_mem_nil, or_false] at hm
    rcases hm with rfl | rfl | rfl
    · trivial
    · trivial
    · exact Nat.le_refl 1
  have hextends : lone.Extends onePage 1 := ⟨.inl rfl, by decide, by decide, _, rfl⟩
  have halone : lone.Alone onePage 1 := by
    intro number payload hfirst hwaiting
    have hissued : (lone.due onePage).page.fetches.length = 2 := by decide
    have hlt := (List.getElem?_eq_some_iff.mp (LivePage.getElem?_of_waiting? hwaiting)).1
    have hnumber : lone.number onePage = 1 := by decide
    omega
  have hs : onePage.page.snapshot.selections.get? 1 =
      some { selectionId := 1, totalCount := 0 } := by decide
  exact ((LivePage.extensions_kept onePage 1 _ _ hs hwindow).2 lone (List.prefix_refl _)
    hextends).2 halone

/-- The request is still out when the next one is made. -/
def earlier : ExtensionRequest where
  before := [pickOnly "a"]
  event := .addToSelection 1
  between := [pickOnly "b", .event (.addToSelection 1)]
  reply := oneInstance

/-- The next request, which is answered last. -/
def later : ExtensionRequest where
  before := [pickOnly "a", .event (.addToSelection 1), pickOnly "b"]
  event := .addToSelection 1
  between := [.answer 1 oneInstance]
  reply := oneInstance

/-- Both requests succeed and the selection is never removed, yet what the first one appended is
gone once the second one is answered. -/
theorem overlapping_extensions_lose :
    let window := later.moves onePage
    (∀ m ∈ window, m.Spares 1 onePage.page.fetches.length) ∧
      earlier.moves onePage <+: window ∧
      earlier.Extends onePage 1 ∧ later.Extends onePage 1 ∧
      (onePage.run window).page.queriesOf 1 = [(later.sent onePage).page.pickedQuery] ∧
      (earlier.sent onePage).page.pickedQuery ∉ (onePage.run window).page.queriesOf 1 := by
  have hlength : onePage.page.fetches.length = 1 := by decide
  have hmoves : later.moves onePage =
      [pickOnly "a", .event (.addToSelection 1), pickOnly "b", .event (.addToSelection 1),
       .answer 1 oneInstance, .answer 2 oneInstance] := rfl
  refine ⟨?_, ⟨[.answer 2 oneInstance], rfl⟩, ?_, ?_, rfl, by decide⟩
  · intro m hm
    rw [hlength]
    simp only [hmoves, List.mem_cons, List.not_mem_nil, or_false] at hm
    rcases hm with rfl | rfl | rfl | rfl | rfl | rfl
    · trivial
    · trivial
    · trivial
    · trivial
    · exact Nat.le_refl 1
    · exact Nat.le_succ 1
  · exact ⟨.inl rfl, by decide, by decide, _, rfl⟩
  · exact ⟨.inl rfl, by decide, by decide, _, rfl⟩

end ExtensionRequest

end InstanceConsole

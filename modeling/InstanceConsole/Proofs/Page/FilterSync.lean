import InstanceConsole.Proofs.Filter.Acceptance
import InstanceConsole.Proofs.Page.Run

/-!
# The filter and the query string

In every state of a page its filter is the one in the query string that it remembers. The page
compares query strings before it reads one, and may skip the reading; by the invariant that never
shows.
-/

set_option autoImplicit false

namespace InstanceConsole

/-- The filter at a query string: the one that it carries, or the default filter. -/
def Filter.atQuery (search : String) : Filter := (ofQuery search).toOption.getD .default

namespace Page

/-- The page remembers a query string that carries its filter. -/
def InSync (p : Page) : Prop :=
  ∃ search, p.currentSearch = some search ∧ Filter.ofQuery search = .ok p.snapshot.filter

/-- The query string that the page remembers is the one of the current location. -/
def ShowsSearch (p : Page) : Prop := p.currentSearch = some p.history.current.search

/-! ## What a query string decides -/

/-- One page agrees with another in all that a query string decides. -/
structure SameFilter (p q : Page) : Prop where
  currentSearch : q.currentSearch = p.currentSearch
  filter : q.snapshot.filter = p.snapshot.filter
  history : q.history = p.history

theorem SameFilter.trans {p q r : Page} (hpq : SameFilter p q) (hqr : SameFilter q r) :
    SameFilter p r where
  currentSearch := hqr.currentSearch.trans hpq.currentSearch
  filter := hqr.filter.trans hpq.filter
  history := hqr.history.trans hpq.history

theorem InSync.of_same {p q : Page} (h : p.InSync) (hsame : SameFilter p q) : q.InSync := by
  obtain ⟨search, hcurrent, hread⟩ := h
  refine ⟨search, hsame.currentSearch.trans hcurrent, ?_⟩
  rw [hsame.filter]
  exact hread

theorem ShowsSearch.of_same {p q : Page} (h : p.ShowsSearch) (hsame : SameFilter p q) :
    q.ShowsSearch := by
  unfold ShowsSearch
  rw [hsame.currentSearch, hsame.history]
  exact h

theorem sameFilter_store (p : Page) (patch : StatePatch) : SameFilter p (p.store patch) := by
  unfold store
  split
  · exact ⟨rfl, rfl, rfl⟩
  · exact ⟨rfl, rfl, rfl⟩

/-! ## Reading a query string -/

theorem filter_readSearch (p : Page) (search : String) :
    (p.readSearch search).snapshot.filter = .atQuery search := by
  unfold readSearch Filter.atQuery
  cases Filter.ofQuery search with
  | ok filter => rfl
  | error e => rfl

/-- Reading settles what the page remembers, whatever that was before. -/
theorem inSync_readSearch (p : Page) (search : String) : (p.readSearch search).InSync := by
  unfold readSearch
  cases h : Filter.ofQuery search with
  | ok filter => exact ⟨search, rfl, h⟩
  | error e =>
      -- The page moves on to the query string of the default filter, which reads back.
      exact ⟨Filter.default.toQuery, rfl, Filter.ofQuery_toQuery_default⟩

/-- A page that reads the query string of its location shows that location in the end, or has
left it for another. -/
theorem showsSearch_readSearch {p : Page} {search : String}
    (h : p.history.current.search = search ∨ ∀ f, Filter.ofQuery search ≠ .ok f) :
    (p.readSearch search).ShowsSearch := by
  unfold readSearch
  cases hread : Filter.ofQuery search with
  | error e => rfl
  | ok filter =>
      rcases h with rfl | hinvalid
      · rfl
      · exact absurd hread (hinvalid filter)

theorem inSync_onLocation {p : Page} (h : p.InSync) (search : String) :
    (p.onLocation search).InSync := by
  unfold onLocation
  split
  · exact h
  · exact inSync_readSearch p search

/-- The shortcut for the query string that the page remembers does not show in the filter. -/
theorem filter_onLocation {p : Page} (h : p.InSync) (search : String) :
    (p.onLocation search).snapshot.filter = .atQuery search := by
  unfold onLocation
  split
  · next hsame =>
      -- Nothing is read, since the invariant already has the filter of this query string.
      obtain ⟨remembered, hcurrent, hread⟩ := h
      have heq : remembered = search := Option.some.inj (hcurrent.symm.trans hsame)
      rw [Filter.atQuery, ← heq, hread]
      rfl
  · exact filter_readSearch p search

/-! ## Visiting the location of a filter -/

theorem currentSearch_pushFilter (p : Page) (filter : Filter) :
    (p.pushFilter filter).currentSearch = p.currentSearch := by
  simp only [pushFilter]

theorem inSync_pushFilter {p : Page} (h : p.InSync) (filter : Filter) :
    (p.pushFilter filter).InSync := by
  unfold InSync
  rw [currentSearch_pushFilter, snapshot_pushFilter]
  exact h

theorem applyFilter_eq (p : Page) (filter : Filter) :
    p.applyFilter filter =
      let moved := (p.pushFilter filter).onLocation filter.toQuery
      moved.store (.ofFilter moved.snapshot.filter) := rfl

theorem inSync_applyFilter {p : Page} (h : p.InSync) (filter : Filter) :
    (p.applyFilter filter).InSync := by
  have hmoved := inSync_onLocation (inSync_pushFilter h filter) filter.toQuery
  rw [applyFilter_eq]
  exact hmoved.of_same (sameFilter_store _ _)

theorem showsSearch_applyFilter (p : Page) (filter : Filter) :
    (p.applyFilter filter).ShowsSearch := by
  have hmoved : ((p.pushFilter filter).onLocation filter.toQuery).ShowsSearch := by
    unfold onLocation
    split
    · -- The page remembered this query string before it went there.
      next hsame => exact hsame
    · exact showsSearch_readSearch (.inl rfl)
  rw [applyFilter_eq]
  exact hmoved.of_same (sameFilter_store _ _)

/-! ## Every message -/

theorem sameFilter_shown {p : Page} {s : Snapshot} (hs : p.snapshot.SameData s) :
    SameFilter p { p with snapshot := s } where
  currentSearch := rfl
  filter := hs.filter
  history := rfl

theorem sameFilter_commitSelections_ok {p : Page} {s : Snapshot}
    (hfilter : s.filter = p.snapshot.filter) : SameFilter p (p.commitSelections (.ok s)) :=
  SameFilter.trans (q := { p with snapshot := s }) ⟨rfl, hfilter, rfl⟩ (sameFilter_store _ _)

theorem inSync_dispatch {p : Page} (h : p.InSync) (e : PageEvent) : (p.dispatch e).InSync := by
  have houtcome := p.outcome_dispatch e
  generalize p.dispatch e = q at houtcome ⊢
  cases houtcome with
  | located location he => exact inSync_onLocation h location.search
  | filtered filter he => exact inSync_applyFilter h filter
  | shown s hs hedit => exact h.of_same (sameFilter_shown hs)
  | issued fetch hfetch he => exact h.of_same ⟨rfl, rfl, rfl⟩
  | removed id s he hs =>
      exact h.of_same (sameFilter_commitSelections_ok (filter_withoutSelection hs))

/-- A completion changes nothing that a query string decides. -/
theorem sameFilter_complete (p : Page) (c : Completion) : SameFilter p (p.complete c) := by
  have h := p.outcome_complete c
  generalize p.complete c = q at h ⊢
  cases h with
  | shown s hs hedit => exact ⟨rfl, hs.filter, rfl⟩
  | counted token count hc hlatest =>
      exact SameFilter.trans
        (q := { p with
          snapshot := p.snapshot.withFilterCount count
          inFlight := p.inFlight - 1 })
        ⟨rfl, rfl, rfl⟩ (sameFilter_store _ _)
  | edited edit s hc hfilter hs =>
      exact SameFilter.trans (q := { p with inFlight := p.inFlight - 1 }) ⟨rfl, rfl, rfl⟩
        (sameFilter_commitSelections_ok hfilter)

theorem inSync_mount (stored : StoredState) (location : Location) :
    (mount stored location).InSync :=
  inSync_readSearch _ _

end Page

namespace LivePage

theorem inSync_of_run {l : LivePage} (h : l.page.InSync) (moves : List Move) :
    (l.run moves).page.InSync := by
  refine page_run_induction moves ?_ ?_ ?_ h
  · intro p e h
    exact Page.inSync_dispatch h e
  · intro p c h
    exact h.of_same (Page.sameFilter_complete p c)
  · intro p history h
    obtain ⟨search, hcurrent, hread⟩ := h
    exact ⟨search, hcurrent, hread⟩

theorem inSync_run (stored : StoredState) (location : Location) (moves : List Move) :
    ((mount stored location).run moves).page.InSync :=
  inSync_of_run (Page.inSync_mount stored location) moves

/-- **The filter of a page and its query string.** In every state after the page was mounted, the
filter is the one in the query string that the page remembers, is normal, and has a field set. So
a change of the location always ends with the filter at that location. After mounting, after a
change of the filter, and after a location without a valid filter, the page remembers the query
string of the current location. -/
theorem filter_follows_search (stored : StoredState) (location : Location) (moves : List Move) :
    let p := ((mount stored location).run moves).page
    p.InSync ∧ p.snapshot.filter.normalized = p.snapshot.filter ∧
      p.snapshot.filter.isEmpty = false ∧
      (∀ next : Location,
        (p.dispatch (.locationChanged next)).snapshot.filter = .atQuery next.search) ∧
      (mount stored location).page.ShowsSearch ∧
      (∀ patch, (p.dispatch (.filterChanged patch)).ShowsSearch) ∧
      (p.dispatch .filterReset).ShowsSearch ∧
      ∀ next : Location, (∀ f, Filter.ofQuery next.search ≠ .ok f) →
        (p.dispatch (.locationChanged next)).ShowsSearch := by
  intro p
  have hsync : p.InSync := inSync_run stored location moves
  obtain ⟨search, hcurrent, hread⟩ := id hsync
  obtain ⟨hcanonical, hfield⟩ := Filter.canonical_of_ofQuery hread
  have hnormal : p.snapshot.filter.normalized = p.snapshot.filter := by
    rw [← hcanonical]
    exact Filter.normalized_canonical _
  refine ⟨hsync, hnormal, hfield, ?_, ?_, ?_, ?_, ?_⟩
  · intro next
    exact Page.filter_onLocation hsync next.search
  · exact Page.showsSearch_readSearch (.inl rfl)
  · intro patch
    exact Page.showsSearch_applyFilter p _
  · exact Page.showsSearch_applyFilter p _
  · intro next hinvalid
    -- The page does not remember a query string without a filter, so it reads this one.
    have hnew : p.currentSearch ≠ some next.search := by
      intro hsame
      obtain rfl := Option.some.inj (hcurrent.symm.trans hsame)
      exact hinvalid _ hread
    show (if p.currentSearch = some next.search then p else p.readSearch next.search).ShowsSearch
    rw [if_neg hnew]
    exact Page.showsSearch_readSearch (.inr hinvalid)

/-- **What a location gives.** A query string carries a filter exactly when it is accepted. Any
other one gives an error, and at its location the page has the whole default filter, whether it
was mounted there or came there from any state. -/
theorem filter_of_accepted_query (stored : StoredState) (location : Location) (moves : List Move)
    (next : Location) :
    ((∃ f, Filter.ofQuery next.search = .ok f) ↔ WireFilter.AcceptedQuery next.search) ∧
      (¬ WireFilter.AcceptedQuery next.search →
        (∃ e, Filter.ofQuery next.search = .error e) ∧
        (mount stored next).page.snapshot.filter = .default ∧
        (((mount stored location).run moves).page.dispatch
          (.locationChanged next)).snapshot.filter = .default) := by
  refine ⟨Filter.exists_ofQuery_eq_ok_iff, fun hrefused => ?_⟩
  rw [← Filter.exists_ofQuery_eq_ok_iff] at hrefused
  cases hquery : Filter.ofQuery next.search with
  | ok f => exact absurd ⟨f, hquery⟩ hrefused
  | error e =>
      have hdefault : Filter.atQuery next.search = .default := by
        rw [Filter.atQuery, hquery]
        rfl
      refine ⟨⟨e, rfl⟩, ?_, ?_⟩
      · rw [← hdefault]
        exact Page.filter_readSearch _ next.search
      · rw [← hdefault]
        exact Page.filter_onLocation (inSync_run stored location moves) next.search

end LivePage

end InstanceConsole

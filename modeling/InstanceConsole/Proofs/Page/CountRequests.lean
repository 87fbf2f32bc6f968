import InstanceConsole.Proofs.Page.FilterSync
import InstanceConsole.Proofs.Page.StoreMirror

/-!
# The latest count

Whenever the filter of a page changes, the page asks for its count with a new token. So there always
is a fetch with the latest token that has the criteria of the filter. The count of the page changes
by the answer to a fetch with that token alone. It does not matter how many older fetches are out,
nor when they are answered.

A token has 64 bits, and after the greatest they begin again. The `n`th count has the token `n`
modulo `2 ^ 64`, so the fetch with the latest token is the only one as long as no more counts have
been asked for than there are tokens.
-/

set_option autoImplicit false

namespace InstanceConsole

def Fetch.isCount : Fetch → Bool
  | .count .. => true
  | .newSelection .. => false
  | .extension .. => false

/-! ## Counts among fetches -/

/-- How many of the fetches up to one with a number ask for a count, itself included. -/
def countOrdinal (fetches : List Fetch) (number : Nat) : Nat :=
  (fetches.take (number + 1)).countP Fetch.isCount

section

variable {fetches : List Fetch} {i j : Nat}

theorem countOrdinal_append (h : i < fetches.length) (more : List Fetch) :
    countOrdinal (fetches ++ more) i = countOrdinal fetches i := by
  rw [countOrdinal, List.take_append_of_le_length h, countOrdinal]

theorem countOrdinal_le (fetches : List Fetch) (i : Nat) :
    countOrdinal fetches i ≤ fetches.countP Fetch.isCount :=
  (List.take_sublist _ _).countP_le

/-- A fetch for a count comes after those of the fetches before it. -/
theorem countP_take_lt_countOrdinal {fetch : Fetch} (hfetch : fetches[j]? = some fetch)
    (hcount : fetch.isCount = true) :
    (fetches.take j).countP Fetch.isCount < countOrdinal fetches j := by
  have hone : [fetch].countP Fetch.isCount = 1 := by simp [hcount]
  rw [countOrdinal, List.take_add_one, hfetch, Option.toList_some, List.countP_append, hone]
  omega

theorem countOrdinal_lt {fetch : Fetch} (hij : i < j) (hfetch : fetches[j]? = some fetch)
    (hcount : fetch.isCount = true) : countOrdinal fetches i < countOrdinal fetches j := by
  have hle : countOrdinal fetches i ≤ (fetches.take j).countP Fetch.isCount :=
    (List.take_sublist_take_left (Nat.succ_le_of_lt hij)).countP_le
  exact Nat.lt_of_le_of_lt hle (countP_take_lt_countOrdinal hfetch hcount)

end

namespace Page

/-! ## Tokens -/

/-- How many counts a page has asked for. -/
def countRequests (p : Page) : Nat := p.fetches.countP Fetch.isCount

/-- The counts that a page asks for are numbered in turn, and the last number is the latest. -/
structure CountsNumbered (p : Page) : Prop where
  latest : p.counts.latest = UInt64.ofNat p.countRequests
  token : ∀ (number : Nat) (token : UInt64) (criteria : Criteria),
    p.fetches[number]? = some (Fetch.count token criteria) →
      token = UInt64.ofNat (countOrdinal p.fetches number)

/-- Moreover the latest count was asked for with the criteria of the filter. -/
structure CountsInStep (p : Page) : Prop extends CountsNumbered p where
  current : ∃ number : Nat,
    p.fetches[number]? = some (Fetch.count p.counts.latest p.snapshot.filter.criteria)

/-- A page asks for no count on the way to another page. -/
structure SameCounts (p q : Page) : Prop where
  counts : q.counts = p.counts
  fetches : ∃ issued, q.fetches = p.fetches ++ issued ∧
    ∀ token criteria, Fetch.count token criteria ∉ issued

variable {p q : Page}

theorem sameCounts_of_fetches (hcounts : q.counts = p.counts) (hfetches : q.fetches = p.fetches) :
    SameCounts p q where
  counts := hcounts
  fetches := ⟨[], hfetches.trans (List.append_nil _).symm, by simp⟩

theorem SameCounts.getElem?_iff (h : SameCounts p q) (number : Nat) (token : UInt64)
    (criteria : Criteria) :
    q.fetches[number]? = some (.count token criteria) ↔
      p.fetches[number]? = some (.count token criteria) := by
  obtain ⟨issued, hfetches, hnone⟩ := h.fetches
  rw [hfetches]
  by_cases hold : number < p.fetches.length
  · rw [List.getElem?_append_left hold]
  · have hle : p.fetches.length ≤ number := Nat.le_of_not_lt hold
    rw [List.getElem?_append_right hle, List.getElem?_eq_none hle]
    refine iff_of_false ?_ (by simp)
    intro hissued
    exact hnone token criteria (List.mem_of_getElem? hissued)

theorem SameCounts.countRequests (h : SameCounts p q) : q.countRequests = p.countRequests := by
  obtain ⟨issued, hfetches, hnone⟩ := h.fetches
  have hissued : issued.countP Fetch.isCount = 0 := by
    rw [List.countP_eq_zero]
    intro fetch hfetch hcount
    cases fetch with
    | count token criteria => exact hnone token criteria hfetch
    | newSelection payload => cases hcount
    | extension id payload => cases hcount
  rw [Page.countRequests, hfetches, List.countP_append, hissued, Nat.add_zero, Page.countRequests]

theorem CountsNumbered.of_same (h : p.CountsNumbered) (hsame : SameCounts p q) :
    q.CountsNumbered where
  latest := by rw [hsame.counts, hsame.countRequests, h.latest]
  token number token criteria hfetch := by
    have hold := (hsame.getElem?_iff number token criteria).mp hfetch
    obtain ⟨hlt, -⟩ := List.getElem?_eq_some_iff.mp hold
    obtain ⟨issued, hfetches, -⟩ := hsame.fetches
    rw [hfetches, countOrdinal_append hlt]
    exact h.token number token criteria hold

theorem CountsInStep.of_same (h : p.CountsInStep) (hsame : SameCounts p q)
    (hfilter : q.snapshot.filter = p.snapshot.filter) : q.CountsInStep where
  toCountsNumbered := h.toCountsNumbered.of_same hsame
  current := by
    obtain ⟨number, hfetch⟩ := h.current
    refine ⟨number, (hsame.getElem?_iff _ _ _).mpr ?_⟩
    rw [hsame.counts, hfilter]
    exact hfetch

/-! ## Telling counts apart -/

/-- Numbers from one on have different tokens, as many as there are tokens. -/
theorem eq_of_token_eq {m n : Nat} (hm : 0 < m) (hm' : m ≤ UInt64.size) (hn : 0 < n)
    (hn' : n ≤ UInt64.size) (h : UInt64.ofNat m = UInt64.ofNat n) : m = n := by
  have hmod : m % UInt64.size = n % UInt64.size := congrArg UInt64.toNat h
  simp only [UInt64.size] at hm' hn' hmod
  omega

variable {i j : Nat} {token : UInt64} {c d : Criteria}

theorem countOrdinal_pos (hi : p.fetches[i]? = some (.count token c)) :
    0 < countOrdinal p.fetches i :=
  Nat.zero_lt_of_lt (countP_take_lt_countOrdinal hi rfl)

/-- While there are tokens enough, no two fetches have the same one. -/
theorem CountsNumbered.unique (h : p.CountsNumbered) (hroom : p.countRequests ≤ UInt64.size)
    (hi : p.fetches[i]? = some (.count token c)) (hj : p.fetches[j]? = some (.count token d)) :
    i = j := by
  have hle : ∀ k, countOrdinal p.fetches k ≤ UInt64.size := fun k =>
    Nat.le_trans (countOrdinal_le p.fetches k) hroom
  have htokens :
      UInt64.ofNat (countOrdinal p.fetches i) = UInt64.ofNat (countOrdinal p.fetches j) :=
    (h.token i token c hi).symm.trans (h.token j token d hj)
  have hsame : countOrdinal p.fetches i = countOrdinal p.fetches j :=
    eq_of_token_eq (countOrdinal_pos hi) (hle i) (countOrdinal_pos hj) (hle j) htokens
  rcases Nat.lt_trichotomy i j with hij | hij | hji
  · have := countOrdinal_lt hij hj rfl
    omega
  · exact hij
  · have := countOrdinal_lt hji hi rfl
    omega

/-- A fetch that has the latest token of a later page has the latest one already. -/
theorem CountsNumbered.latest_eq (hp : p.CountsNumbered) (hq : q.CountsNumbered)
    (hle : p.countRequests ≤ q.countRequests) (hroom : q.countRequests ≤ UInt64.size)
    (hi : p.fetches[i]? = some (.count q.counts.latest c)) :
    p.counts.latest = q.counts.latest := by
  have hpos := countOrdinal_pos hi
  have hordinal := countOrdinal_le p.fetches i
  rw [← countRequests] at hordinal
  have htokens : UInt64.ofNat (countOrdinal p.fetches i) = UInt64.ofNat q.countRequests :=
    (hp.token i _ c hi).symm.trans hq.latest
  have hlast : countOrdinal p.fetches i = q.countRequests :=
    eq_of_token_eq hpos (by omega) (by omega) hroom htokens
  have hsame : p.countRequests = q.countRequests := by omega
  rw [hp.latest, hq.latest, hsame]

/-! ## Asking for a count -/

theorem fetches_countFilter (p : Page) :
    p.countFilter.fetches =
      p.fetches ++ [.count (p.counts.latest + 1) p.snapshot.filter.criteria] := rfl

theorem countRequests_countFilter (p : Page) :
    p.countFilter.countRequests = p.countRequests + 1 := by
  rw [countRequests, fetches_countFilter, List.countP_append]
  rfl

/-- After a count has been asked for, the other fetches for counts are older. -/
theorem getElem?_countFilter {number : Nat} {criteria : Criteria}
    (h : p.countFilter.fetches[number]? = some (.count token criteria)) :
    p.fetches[number]? = some (.count token criteria) ∨
      number = p.fetches.length ∧ token = p.counts.latest + 1 := by
  rw [fetches_countFilter] at h
  by_cases hold : number < p.fetches.length
  · rw [List.getElem?_append_left hold] at h
    exact .inl h
  · have hle : p.fetches.length ≤ number := Nat.le_of_not_lt hold
    rw [List.getElem?_append_right hle, List.getElem?_singleton] at h
    split at h
    · next hzero =>
        cases h
        exact .inr ⟨by omega, rfl⟩
    · cases h

/-- Asking for a count brings the tokens and the filter into step. -/
theorem countsInStep_countFilter (h : p.CountsNumbered) : p.countFilter.CountsInStep := by
  have hnext : p.counts.latest + 1 = UInt64.ofNat p.countFilter.countRequests := by
    rw [h.latest, countRequests_countFilter, UInt64.ofNat_add]
    rfl
  refine ⟨⟨hnext, ?_⟩, p.fetches.length, ?_⟩
  · intro number token criteria hfetch
    rcases getElem?_countFilter hfetch with hold | ⟨rfl, rfl⟩
    · obtain ⟨hlt, -⟩ := List.getElem?_eq_some_iff.mp hold
      rw [fetches_countFilter, countOrdinal_append hlt]
      exact h.token number token criteria hold
    · -- The new fetch is the last of all.
      have hall : p.countFilter.fetches.take (p.fetches.length + 1) = p.countFilter.fetches :=
        List.take_of_length_le (by simp [fetches_countFilter])
      rw [countOrdinal, hall, hnext, countRequests]
  · rw [fetches_countFilter, List.getElem?_append_right (Nat.le_refl _), Nat.sub_self]
    rfl

theorem countsInStep_readSearch (h : p.CountsNumbered) (search : String) :
    (p.readSearch search).CountsInStep := by
  unfold readSearch
  cases Filter.ofQuery search with
  | ok filter => exact countsInStep_countFilter (h.of_same (sameCounts_of_fetches rfl rfl))
  | error e => exact countsInStep_countFilter (h.of_same (sameCounts_of_fetches rfl rfl))

theorem countRequests_readSearch (p : Page) (search : String) :
    (p.readSearch search).countRequests = p.countRequests + 1 := by
  unfold readSearch
  cases Filter.ofQuery search with
  | ok filter => exact countRequests_countFilter _
  | error e => exact countRequests_countFilter _

theorem countsInStep_mount (stored : StoredState) (location : Location) :
    (mount stored location).CountsInStep :=
  countsInStep_readSearch ⟨rfl, by simp⟩ _

/-! ## Every message -/

/-- From one page to another the counts stay in step, and none is taken back. -/
structure KeepsCounts (p q : Page) : Prop where
  inStep : p.CountsInStep → q.CountsInStep
  le : p.countRequests ≤ q.countRequests

theorem KeepsCounts.trans {r : Page} (hpq : KeepsCounts p q) (hqr : KeepsCounts q r) :
    KeepsCounts p r where
  inStep h := hqr.inStep (hpq.inStep h)
  le := Nat.le_trans hpq.le hqr.le

theorem SameCounts.keeps (h : SameCounts p q) (hfilter : q.snapshot.filter = p.snapshot.filter) :
    KeepsCounts p q where
  inStep hp := hp.of_same h hfilter
  le := Nat.le_of_eq h.countRequests.symm

theorem keepsCounts_of_fetches (hcounts : q.counts = p.counts) (hfetches : q.fetches = p.fetches)
    (hfilter : q.snapshot.filter = p.snapshot.filter) : KeepsCounts p q :=
  (sameCounts_of_fetches hcounts hfetches).keeps hfilter

theorem keepsCounts_store (p : Page) (patch : StatePatch) : KeepsCounts p (p.store patch) := by
  rw [store_eq]
  exact keepsCounts_of_fetches rfl rfl rfl

theorem keepsCounts_onLocation (p : Page) (search : String) :
    KeepsCounts p (p.onLocation search) := by
  unfold onLocation
  split
  · exact keepsCounts_of_fetches rfl rfl rfl
  · refine ⟨fun h => countsInStep_readSearch h.toCountsNumbered search, ?_⟩
    rw [countRequests_readSearch]
    exact Nat.le_succ _

theorem keepsCounts_dispatch (p : Page) (e : PageEvent) : KeepsCounts p (p.dispatch e) := by
  refine dispatch_of_small_steps (R := KeepsCounts) KeepsCounts.trans keepsCounts_store ?_ ?_
    keepsCounts_onLocation ?_ p e
  · exact fun _ _ hfilter => keepsCounts_of_fetches rfl rfl hfilter
  · intro q filter
    unfold pushFilter
    exact keepsCounts_of_fetches rfl rfl rfl
  · intro q event fetch hfetch
    refine SameCounts.keeps ⟨rfl, [fetch], rfl, ?_⟩ rfl
    intro token criteria hcount
    rw [← List.mem_singleton.mp hcount] at hfetch
    exact hfetch

theorem keepsCounts_complete (p : Page) (c : Completion) : KeepsCounts p (p.complete c) := by
  refine complete_of_small_steps (R := KeepsCounts) KeepsCounts.trans keepsCounts_store ?_ ?_ p c
  · exact fun _ _ hfilter => keepsCounts_of_fetches rfl rfl hfilter
  · exact fun _ => keepsCounts_of_fetches rfl rfl rfl

end Page

namespace LivePage

variable {l : LivePage} {m : Move} {count : UInt64}

theorem keepsCounts_step (l : LivePage) (m : Move) : Page.KeepsCounts l.page (l.step m).page := by
  rcases l.page_step m with ⟨message, -, hpage⟩ | ⟨-, history, hpage⟩
  · rw [hpage]
    cases message with
    | event e => exact l.page.keepsCounts_dispatch e
    | completion c => exact l.page.keepsCounts_complete c
  · rw [hpage]
    exact Page.keepsCounts_of_fetches rfl rfl rfl

theorem keepsCounts_run (l : LivePage) (moves : List Move) :
    Page.KeepsCounts l.page (l.run moves).page := by
  refine run_induction (P := fun next => Page.KeepsCounts l.page next.page)
    (fun next m _ h => h.trans (next.keepsCounts_step m)) ?_
  exact Page.keepsCounts_of_fetches rfl rfl rfl

/-! ## The answer that counts -/

/-- A move answers the fetch with the latest token, and successfully. -/
def BringsCount (l : LivePage) (m : Move) (count : UInt64) : Prop :=
  ∃ number reply criteria, m = .answer number reply ∧
    l.waiting? number = some (.count l.page.counts.latest criteria) ∧ reply.count = .ok count

theorem commits?_of_bringsCount (h : l.BringsCount m count) :
    l.commits? m = some .filterCount ∧ (l.step m).page.snapshot.filterCount = count := by
  obtain ⟨number, reply, criteria, rfl, hwaiting, hreply⟩ := h
  have hlatest : l.page.counts.isLatest l.page.counts.latest = true := by
    simp [RequestSequence.isLatest]
  constructor
  · simp [commits?, message?, hwaiting, Fetch.completion, hreply, Page.commits?, hlatest]
  · rw [step_answer_of_some hwaiting]
    simp only [Fetch.completion, hreply, Page.complete, Page.applyCompletion]
    rw [if_pos hlatest, Page.snapshot_store]
    rfl

theorem bringsCount_of_commits? (h : l.commits? m = some .filterCount) :
    ∃ count, l.BringsCount m count := by
  cases m with
  | visit location => simp [commits?, message?] at h
  | event e =>
      obtain ⟨message, hmessage, hcommits⟩ := Option.bind_eq_some_iff.mp h
      obtain rfl := Option.some.inj hmessage
      cases e <;> simp [Page.commits?, PageEvent.setsFilter] at hcommits
  | answer number reply =>
      obtain ⟨message, hmessage, hcommits⟩ := Option.bind_eq_some_iff.mp h
      obtain ⟨fetch, hwaiting, rfl⟩ := Option.map_eq_some_iff.mp hmessage
      cases fetch with
      | count token criteria =>
          cases hreply : reply.count with
          | error e => simp [Fetch.completion, hreply, Page.commits?] at hcommits
          | ok count =>
              have hlatest : token = l.page.counts.latest := by
                simpa [Fetch.completion, hreply, Page.commits?, RequestSequence.isLatest]
                  using hcommits
              rw [hlatest] at hwaiting
              exact ⟨count, number, reply, criteria, rfl, hwaiting, hreply⟩
      | newSelection payload =>
          cases hreply : reply.details <;>
            simp [Fetch.completion, hreply, Page.commits?] at hcommits
      | extension id payload =>
          cases hreply : reply.details <;>
            simp [Fetch.completion, hreply, Page.commits?] at hcommits

/-- The count of a page changes by the answer to the latest fetch alone. -/
theorem filterCount_step_of_not_bringsCount (h : ∀ count, ¬ l.BringsCount m count) :
    (l.step m).page.snapshot.filterCount = l.page.snapshot.filterCount := by
  refine (l.commits_step m).filterCount ?_
  intro hcommits
  obtain ⟨count, hcount⟩ := bringsCount_of_commits? hcommits
  exact h count hcount

/-- The stored count follows, if the update is written. -/
theorem stored_filterCount_step_of_bringsCount (stored : StoredState) (written : Nat → Bool)
    (h : l.BringsCount m count) :
    ((l.step m).store stored written).filterCount =
      if written l.page.writes.length then count else (l.store stored written).filterCount := by
  obtain ⟨hcommits, hcount⟩ := commits?_of_bringsCount h
  rw [store_step_of_some hcommits, ← hcount]
  split
  · rfl
  · rfl

theorem stored_filterCount_step_of_not_bringsCount (stored : StoredState) (written : Nat → Bool)
    (h : ∀ count, ¬ l.BringsCount m count) :
    ((l.step m).store stored written).filterCount = (l.store stored written).filterCount := by
  have hnot : ¬ l.WritesAt written .filterCount [] m := by
    rintro ⟨hcommits, -⟩
    obtain ⟨count, hcount⟩ := bringsCount_of_commits? hcommits
    exact h count hcount
  have hheld := held_step_of_not_writesAt stored hnot
  exact Option.some.inj (congrArg StatePatch.filterCount hheld)

/-! ## Runs -/

theorem countsInStep_run (stored : StoredState) (location : Location) (moves : List Move) :
    ((mount stored location).run moves).page.CountsInStep :=
  (keepsCounts_run _ moves).inStep (Page.countsInStep_mount stored location)

/-- Once the latest fetch has been answered its count stays, as long as no later one is asked
for. -/
theorem filterCount_run_of_answered {number : Nat} {criteria : Criteria} {moves : List Move}
    (hinStep : l.page.CountsInStep) (hroom : (l.run moves).page.countRequests ≤ UInt64.size)
    (hfetch : l.page.fetches[number]? =
      some (.count (l.run moves).page.counts.latest criteria))
    (hanswered : number ∈ l.answered) (hcount : l.page.snapshot.filterCount = count) :
    (l.run moves).page.snapshot.filterCount = count := by
  induction moves generalizing l with
  | nil => exact hcount
  | cons m moves ih =>
      have hlater := keepsCounts_run l (m :: moves)
      -- No count is taken back, so this one has been the latest all along.
      have hnow : l.page.counts.latest = (l.run (m :: moves)).page.counts.latest :=
        hinStep.latest_eq (hlater.inStep hinStep).toCountsNumbered hlater.le hroom hfetch
      have hnot : ∀ other, ¬ l.BringsCount m other := by
        rintro other ⟨again, reply, wanted, rfl, hwaiting, -⟩
        rw [hnow] at hwaiting
        have hsame : again = number :=
          hinStep.unique (Nat.le_trans hlater.le hroom) (getElem?_of_waiting? hwaiting) hfetch
        rw [hsame, waiting?_of_mem hanswered] at hwaiting
        cases hwaiting
      have hcount : (l.step m).page.snapshot.filterCount = count :=
        (filterCount_step_of_not_bringsCount hnot).trans hcount
      exact ih ((l.keepsCounts_step m).inStep hinStep) hroom (getElem?_fetches_run [m] hfetch)
        (answered_step m hanswered) hcount

/-- A fetch whose token is the latest at the end of a run was so when it was answered, and what it
brought is still there. -/
theorem filterCount_run_of_answer {number : Nat} {reply : Reply} {criteria : Criteria}
    {after : List Move} (hinStep : l.page.CountsInStep)
    (hroom : (l.run (.answer number reply :: after)).page.countRequests ≤ UInt64.size)
    (hwaiting : l.waiting? number =
      some (.count (l.run (.answer number reply :: after)).page.counts.latest criteria))
    (hreply : reply.count = .ok count) :
    (l.run (.answer number reply :: after)).page.snapshot.filterCount = count := by
  have hfetch := getElem?_of_waiting? hwaiting
  have hlater := keepsCounts_run l (.answer number reply :: after)
  have hlatest : l.page.counts.latest =
      (l.run (.answer number reply :: after)).page.counts.latest :=
    hinStep.latest_eq (hlater.inStep hinStep).toCountsNumbered hlater.le hroom hfetch
  have hbrings : l.BringsCount (.answer number reply) count :=
    ⟨number, reply, criteria, rfl, by rw [hlatest]; exact hwaiting, hreply⟩
  have hanswered : number ∈ (l.step (.answer number reply)).answered := by
    rw [step_answer_of_some hwaiting]
    exact List.mem_cons_self
  exact filterCount_run_of_answered (l := l.step (.answer number reply))
    ((l.keepsCounts_step _).inStep hinStep) hroom
    (getElem?_fetches_run [.answer number reply] hfetch) hanswered
    (commits?_of_bringsCount hbrings).2

/-- **Stale counts never win.** In every state after the page was mounted there is a fetch with the
latest token that asks with the criteria of the filter. The answer to a fetch with this token, if
it is a success, sets the count of the page, and the stored count when its update is written.
Nothing else changes either of them.

Let no more counts have been asked for than there are tokens. Then the fetch with the latest token
is the only one. So if it has been answered successfully by the end of a run, the page shows the
backend's answer to the criteria of its filter, whatever has been answered before or after. -/
theorem latest_count_wins (stored : StoredState) (location : Location) (written : Nat → Bool)
    (moves : List Move) :
    let start := mount stored location
    let l := start.run moves
    (∃ number : Nat,
      l.page.fetches[number]? =
        some (.count l.page.counts.latest l.page.snapshot.filter.criteria) ∧
      (l.page.countRequests ≤ UInt64.size → ∀ (other : Nat) (criteria : Criteria),
        l.page.fetches[other]? = some (.count l.page.counts.latest criteria) → other = number)) ∧
    (∀ m count, l.BringsCount m count →
      (l.step m).page.snapshot.filterCount = count ∧
      ((l.step m).store stored written).filterCount =
        if written l.page.writes.length then count else (l.store stored written).filterCount) ∧
    (∀ m, (∀ count, ¬ l.BringsCount m count) →
      (l.step m).page.snapshot.filterCount = l.page.snapshot.filterCount ∧
      ((l.step m).store stored written).filterCount = (l.store stored written).filterCount) ∧
    (l.page.countRequests ≤ UInt64.size →
      ∀ before number reply after criteria count, moves = before ++ .answer number reply :: after →
      (start.run before).waiting? number = some (.count l.page.counts.latest criteria) →
      reply.count = .ok count →
      l.page.snapshot.filterCount = count ∧ criteria = l.page.snapshot.filter.criteria) := by
  intro start l
  have hinStep : l.page.CountsInStep := countsInStep_run stored location moves
  obtain ⟨latest, hcurrent⟩ := hinStep.current
  refine ⟨⟨latest, hcurrent, ?_⟩, ?_, ?_, ?_⟩
  · intro hroom other criteria hother
    exact hinStep.unique hroom hother hcurrent
  · intro m count h
    exact ⟨(commits?_of_bringsCount h).2,
      stored_filterCount_step_of_bringsCount stored written h⟩
  · intro m h
    exact ⟨filterCount_step_of_not_bringsCount h,
      stored_filterCount_step_of_not_bringsCount stored written h⟩
  · intro hroom before number reply after criteria count hsplit hwaiting hreply
    have hrun : l = (start.run before).run (.answer number reply :: after) := by
      rw [← run_append, ← hsplit]
    have hfinal : l.page.fetches[number]? = some (.count l.page.counts.latest criteria) := by
      rw [hrun] at hwaiting ⊢
      exact getElem?_fetches_run _ (getElem?_of_waiting? hwaiting)
    constructor
    · rw [hrun] at hwaiting hroom ⊢
      exact filterCount_run_of_answer (countsInStep_run stored location before) hroom hwaiting
        hreply
    · -- There is one fetch with the latest token, and it is for the filter.
      have hsame : number = latest := hinStep.unique hroom hfinal hcurrent
      rw [hsame, hcurrent] at hfinal
      cases hfinal
      rfl

/-- The count for the changed filter comes first, and the one for the filter before it last. -/
theorem latest_count_wins_overtaken :
    let five : Reply := { count := .ok 5, details := .ok { totalCount := 0 } }
    let seven : Reply := { count := .ok 7, details := .ok { totalCount := 0 } }
    let moves := [.event (.filterChanged { completed := some true }), .answer 1 five,
      .answer 0 seven]
    let l := (mount {} ⟨"/instances", ""⟩).run moves
    l.page.snapshot.filterCount = 5 ∧
      l.page.fetches[1]? = some (.count 2 l.page.snapshot.filter.criteria) := by
  intro five seven moves l
  let change : Move := .event (.filterChanged { completed := some true })
  let changed := (mount {} ⟨"/instances", ""⟩).run [change]
  let criteria := { Filter.default with completed := some true }.criteria
  obtain ⟨hroom, hlatest, hwaiting, hfetch⟩ :
      l.page.countRequests ≤ UInt64.size ∧ l.page.counts.latest = 2 ∧
      changed.waiting? 1 = some (.count 2 criteria) ∧
      l.page.fetches[1]? = some (.count 2 criteria) := by
    decide +kernel
  have hlast := (latest_count_wins {} ⟨"/instances", ""⟩ (fun _ => true) moves).2.2.2
  rw [show (mount {} ⟨"/instances", ""⟩).run moves = l from rfl] at hlast
  -- All that is needed of the page has been said.
  clear_value l
  rw [← hlatest] at hwaiting
  obtain ⟨hcount, hcriteria⟩ :=
    hlast hroom [change] 1 five [.answer 0 seven] criteria 5 rfl hwaiting rfl
  exact ⟨hcount, hcriteria ▸ hfetch⟩

end LivePage

end InstanceConsole

import InstanceConsole.Proofs.Page.Session

/-!
# The updates that a page has queued

A page adds to the updates that it has queued for the store, and never looks at them. So two pages
that are the same but for these stay the same but for these, and queue the same updates from then
on. What they store in the end is the same when what they had queued comes to the same
(`Page.Agrees.handle`). Sessions with such pages settle alike (`Session.Agrees.settle`).
-/

set_option autoImplicit false

namespace InstanceConsole

namespace Page

/-- The page but for the updates that it has queued. -/
def withoutWrites (p : Page) : Page := { p with writes := [] }

/-- Two pages are the same but for the updates that they have queued, and these store the same. -/
structure Agrees (p q : Page) : Prop where
  withoutWrites : q.withoutWrites = p.withoutWrites
  stored : ∀ s : StoredState,
    q.writes.foldl StoredState.apply s = p.writes.foldl StoredState.apply s

variable {p q : Page}

theorem snapshot_withoutWrites (p : Page) : p.withoutWrites.snapshot = p.snapshot := rfl

theorem eq_of_withoutWrites (h : q.withoutWrites = p.withoutWrites) :
    q = { p with writes := q.writes } := by
  show { q.withoutWrites with writes := q.writes } = { p.withoutWrites with writes := q.writes }
  rw [h]

theorem Agrees.refl (p : Page) : p.Agrees p := ⟨rfl, fun _ => rfl⟩

/-! ## What is queued makes no difference -/

theorem withoutWrites_store (p : Page) (patch : StatePatch) :
    (p.store patch).withoutWrites = p.withoutWrites := by
  rw [store_eq]
  rfl

theorem withoutWrites_commitSelections (p : Page) (next : Except PageError Snapshot) :
    (p.commitSelections next).withoutWrites =
      (p.withoutWrites.commitSelections next).withoutWrites := by
  cases next with
  | error error => rfl
  | ok s =>
      simp only [commitSelections, withoutWrites_store]
      rfl

theorem withoutWrites_onLocation (p : Page) (search : String) :
    (p.onLocation search).withoutWrites = p.withoutWrites.onLocation search := by
  by_cases hsearch : p.currentSearch = some search
  · have hsame : p.withoutWrites.currentSearch = some search := hsearch
    rw [onLocation, if_pos hsearch, onLocation, if_pos hsame]
  · have hother : p.withoutWrites.currentSearch ≠ some search := hsearch
    rw [onLocation, if_neg hsearch, onLocation, if_neg hother, readSearch, readSearch]
    cases Filter.ofQuery search with
    | ok filter => rfl
    | error e => rfl

theorem withoutWrites_applyFilter (p : Page) (filter : Filter) :
    (p.applyFilter filter).withoutWrites =
      (p.withoutWrites.applyFilter filter).withoutWrites := by
  simp only [applyFilter, withoutWrites_store, withoutWrites_onLocation]
  rfl

theorem withoutWrites_addTo (p : Page) (id : UInt64) :
    (p.addTo id).withoutWrites = p.withoutWrites.addTo id := by
  unfold addTo
  rw [snapshot_withoutWrites]
  cases p.snapshot.selections.get? id with
  | none => rfl
  | some existing =>
      dsimp only
      split
      · rfl
      · rfl

theorem withoutWrites_dispatch (p : Page) (e : PageEvent) :
    (p.dispatch e).withoutWrites = (p.withoutWrites.dispatch e).withoutWrites := by
  cases e with
  | locationChanged location =>
      simp only [dispatch, withoutWrites_onLocation]
      rfl
  | filterChanged patch => exact withoutWrites_applyFilter p (p.changedFilter patch)
  | filterReset => exact withoutWrites_applyFilter p .default
  | addNewSelection =>
      show p.addNew.withoutWrites = p.withoutWrites.addNew.withoutWrites
      unfold addNew
      rw [snapshot_withoutWrites]
      split
      · rfl
      · rfl
  | addToSelection id =>
      simp only [dispatch, withoutWrites_addTo]
      rfl
  | addToOpenSelection =>
      unfold dispatch
      rw [snapshot_withoutWrites]
      cases p.snapshot.openSelection with
      | none => rfl
      | some id =>
          simp only [withoutWrites_addTo]
          rfl
  | toggleOpenSelection id =>
      show (p.commit (p.snapshot.withOpenToggled id)).withoutWrites =
        (p.withoutWrites.commit (p.snapshot.withOpenToggled id)).withoutWrites
      cases p.snapshot.withOpenToggled id with
      | error error => rfl
      | ok s => rfl
  | removeSelection id => exact withoutWrites_commitSelections p (p.snapshot.withoutSelection id)
  | _ => rfl

theorem withoutWrites_complete (p : Page) (c : Completion) :
    (p.complete c).withoutWrites = (p.withoutWrites.complete c).withoutWrites := by
  cases c with
  | count token result =>
      simp only [complete, applyCompletion]
      show _ = withoutWrites (if p.counts.isLatest token = true then _ else _)
      split
      · cases result with
        | error e => rfl
        | ok count =>
            simp only [withoutWrites_store]
            rfl
      · rfl
  | newSelection payload result =>
      exact withoutWrites_commitSelections { p with inFlight := p.inFlight - 1 } _
  | extension id payload result =>
      exact withoutWrites_commitSelections { p with inFlight := p.inFlight - 1 } _

theorem withoutWrites_handle (p : Page) (m : PageMessage) :
    (p.handle m).withoutWrites = (p.withoutWrites.handle m).withoutWrites := by
  cases m with
  | event e => exact withoutWrites_dispatch p e
  | completion c => exact withoutWrites_complete p c

theorem commits?_withoutWrites (p : Page) (m : PageMessage) :
    p.withoutWrites.commits? m = p.commits? m := rfl

/-! ## One message -/

/-- **What two pages that agree do with a message** is the same, and so they still agree. -/
theorem Agrees.handle (h : p.Agrees q) (m : PageMessage) : (p.handle m).Agrees (q.handle m) := by
  have hafter : (q.handle m).withoutWrites = (p.handle m).withoutWrites :=
    calc (q.handle m).withoutWrites
        = (q.withoutWrites.handle m).withoutWrites := withoutWrites_handle q m
      _ = (p.withoutWrites.handle m).withoutWrites := by rw [h.withoutWrites]
      _ = (p.handle m).withoutWrites := (withoutWrites_handle p m).symm
  -- Both queue the same behind what they have queued.
  have hsnapshot : (q.handle m).snapshot = (p.handle m).snapshot := by
    rw [eq_of_withoutWrites hafter]
  have hcommits : q.commits? m = p.commits? m := by
    rw [← commits?_withoutWrites, h.withoutWrites, commits?_withoutWrites]
  refine ⟨hafter, fun s => ?_⟩
  rw [(q.commits_handle m).writes, (p.commits_handle m).writes, hcommits, hsnapshot,
    List.foldl_append, List.foldl_append, h.stored]

theorem Agrees.foldl_handle (h : p.Agrees q) (messages : List PageMessage) :
    (messages.foldl Page.handle p).Agrees (messages.foldl Page.handle q) := by
  induction messages generalizing p q with
  | nil => exact h
  | cons m messages ih => exact ih (h.handle m)

end Page

namespace LivePage

/-- Two pages agree on all that is to come: what they are, and which of their fetches wait. -/
structure Agrees (k l : LivePage) : Prop where
  page : k.page.Agrees l.page
  answered : ∀ number, number ∈ l.answered ↔ number ∈ k.answered

variable {k l : LivePage}

theorem Agrees.waiting? (h : k.Agrees l) (number : Nat) :
    l.waiting? number = k.waiting? number := by
  have hfetches : l.page.fetches = k.page.fetches := by
    rw [Page.eq_of_withoutWrites h.page.withoutWrites]
  simp only [LivePage.waiting?, h.answered, hfetches]

theorem Agrees.message? (h : k.Agrees l) (m : Move) : l.message? m = k.message? m := by
  cases m with
  | event e => rfl
  | visit location => rfl
  | answer number reply => simp only [LivePage.message?, h.waiting?]

theorem Agrees.store (h : k.Agrees l) (initial : StoredState) :
    (l.store initial fun _ => true) = k.store initial fun _ => true := by
  rw [LivePage.store, LivePage.store, StoredState.applyWritten_true, StoredState.applyWritten_true,
    h.page.stored]

end LivePage

namespace Session

/-- Two sessions have pages that agree, the same messages to come, and the same fetches without an
answer. -/
structure Agrees (s t : Session) : Prop where
  page : s.page.Agrees t.page
  attached : t.attached = s.attached
  queue : t.queue = s.queue
  answered : ∀ number, number ∈ t.answered ↔ number ∈ s.answered

variable {s t : Session} {σ : Type}

/-- Sessions on pages that agree agree themselves, when the same moves are still to come. -/
theorem Follows.agrees {k l : LivePage} {pending : List Move} (hs : s.Follows k pending)
    (ht : t.Follows l pending) (h : k.Agrees l) (hattached : t.attached = s.attached) :
    s.Agrees t where
  page := by
    rw [hs.page, ht.page]
    exact h.page
  attached := hattached
  queue := by
    rw [hs.queue_eq, ht.queue_eq]
    exact List.filterMap_congr fun m _ => h.message? m
  answered number := by rw [hs.answered, ht.answered, h.answered]

theorem Agrees.held (h : s.Agrees t) : t.held = s.held := by
  refine held_congr ?_ h.answered
  rw [Page.eq_of_withoutWrites h.page.withoutWrites]

/-! ## Settling -/

theorem Agrees.deliver (h : s.Agrees t) (number : Nat) (completion : Completion) :
    (s.deliver number completion).Agrees (t.deliver number completion) where
  page := h.page
  attached := h.attached
  queue := by simp only [Session.deliver, h.attached, h.queue]
  answered other := by simp only [Session.deliver, List.mem_cons, h.answered]

theorem Agrees.drain (h : s.Agrees t) : s.drain.Agrees t.drain where
  page := by
    simp only [Session.drain, h.queue]
    exact h.page.foldl_handle s.queue
  attached := h.attached
  queue := rfl
  answered := h.answered

/-- **Sessions that agree settle alike.** -/
theorem Agrees.settle (h : s.Agrees t) (backend : Backend σ) (state : σ) :
    (s.settle backend state).1.Agrees (t.settle backend state).1 ∧
      (t.settle backend state).2 = (s.settle backend state).2 :=
  settle_congr Agrees.held (fun number completion hst => hst.deliver number completion)
    Agrees.drain h backend state

theorem Agrees.storedState (h : s.Agrees t) (initial : StoredState) :
    t.storedState initial = s.storedState initial :=
  h.page.stored initial

end Session

end InstanceConsole

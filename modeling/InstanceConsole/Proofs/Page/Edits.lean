import InstanceConsole.Proofs.Page.Run

/-!
# What moves do to the selections

A move stands for one edit of the list of selections at most: the answer to a fetch for a new
selection, the answer to an extension, or a removal (`edit?_eq_some_iff`). All that happens to the
list in a run is the edits of its moves in turn (`selections_run`).
-/

set_option autoImplicit false

namespace InstanceConsole

open SelectionList (Edit)

/-- The edit of the selections that a message stands for. -/
def PageMessage.edit? : PageMessage → Option Edit
  | .event e => e.edit?
  | .completion c => c.edit?

theorem Page.selections_handle (p : Page) (m : PageMessage) :
    (p.handle m).snapshot.selections = p.snapshot.selections.edits m.edit?.toList := by
  cases m with
  | event e => exact p.selections_dispatch e
  | completion c => exact p.selections_complete c

namespace LivePage

/-- The selections of the page, newest first. -/
def selections (l : LivePage) : List Selection := l.page.snapshot.selections.selections

/-- The edit of the selections that a move stands for. -/
def edit? (l : LivePage) (m : Move) : Option Edit := (l.message? m).bind PageMessage.edit?

/-- The edits of a run. -/
def edits : LivePage → List Move → List Edit
  | _, [] => []
  | l, m :: moves => (l.edit? m).toList ++ (l.step m).edits moves

/-- What makes a move stand for an edit. -/
def Makes (l : LivePage) (m : Move) : Edit → Prop
  | .new payload details => ∃ number reply, m = .answer number reply ∧
      l.waiting? number = some (.newSelection payload) ∧ reply.details = .ok details
  | .merge id payload details => ∃ number reply, m = .answer number reply ∧
      l.waiting? number = some (.extension id payload) ∧ reply.details = .ok details
  | .remove id => m = .event (.removeSelection id)

variable {l : LivePage} {m : Move} {e : Edit}

theorem edit?_answer {number : Nat} {fetch : Fetch} (h : l.waiting? number = some fetch)
    (reply : Reply) : l.edit? (.answer number reply) = (fetch.completion reply).edit? := by
  simp only [edit?, message?, h, Option.map_some, Option.bind_some, PageMessage.edit?]

/-- Only an answer with details makes an edit. -/
theorem edit?_answer_of_error {number : Nat} {reply : Reply} {error : ClientError}
    (h : reply.details = .error error) : l.edit? (.answer number reply) = none := by
  cases hw : l.waiting? number with
  | none => simp [edit?, message?, hw]
  | some fetch =>
      rw [edit?_answer hw]
      cases fetch with
      | count token criteria => rfl
      | newSelection payload => simp [Fetch.completion, h, Completion.edit?]
      | extension id payload => simp [Fetch.completion, h, Completion.edit?]

theorem edit?_of_makes (h : l.Makes m e) : l.edit? m = some e := by
  cases e with
  | new payload details =>
      obtain ⟨number, reply, rfl, hwaiting, hreply⟩ := h
      rw [edit?_answer hwaiting]
      simp only [Fetch.completion, hreply, Completion.edit?]
  | merge id payload details =>
      obtain ⟨number, reply, rfl, hwaiting, hreply⟩ := h
      rw [edit?_answer hwaiting]
      simp only [Fetch.completion, hreply, Completion.edit?]
  | remove id =>
      obtain rfl : m = .event (.removeSelection id) := h
      rfl

theorem makes_of_edit? (h : l.edit? m = some e) : l.Makes m e := by
  cases m with
  | visit location => cases h
  | event event =>
      cases event with
      | removeSelection id =>
          obtain rfl := Option.some.inj h
          exact rfl
      | _ => cases h
  | answer number reply =>
      obtain ⟨message, hmessage, -⟩ := Option.bind_eq_some_iff.mp h
      obtain ⟨fetch, hwaiting, -⟩ := Option.map_eq_some_iff.mp hmessage
      rw [edit?_answer hwaiting] at h
      cases fetch with
      | count token criteria => cases h
      | newSelection payload =>
          cases hreply : reply.details with
          | error error => simp [Fetch.completion, hreply, Completion.edit?] at h
          | ok details =>
              simp only [Fetch.completion, hreply, Completion.edit?] at h
              obtain rfl := Option.some.inj h
              exact ⟨number, reply, rfl, hwaiting, hreply⟩
      | extension id payload =>
          cases hreply : reply.details with
          | error error => simp [Fetch.completion, hreply, Completion.edit?] at h
          | ok details =>
              simp only [Fetch.completion, hreply, Completion.edit?] at h
              obtain rfl := Option.some.inj h
              exact ⟨number, reply, rfl, hwaiting, hreply⟩

theorem edit?_eq_some_iff : l.edit? m = some e ↔ l.Makes m e :=
  ⟨makes_of_edit?, edit?_of_makes⟩

theorem selections_step (l : LivePage) (m : Move) :
    (l.step m).page.snapshot.selections = l.page.snapshot.selections.edits (l.edit? m).toList := by
  unfold edit?
  rcases l.page_step m with ⟨message, hmessage, hpage⟩ | ⟨hmessage, history, hpage⟩
  · rw [hmessage, hpage]
    exact l.page.selections_handle message
  · rw [hmessage, hpage]
    rfl

theorem selections_step_of_makes (h : l.Makes m e) :
    (l.step m).page.snapshot.selections = l.page.snapshot.selections.edit e := by
  rw [selections_step, edit?_of_makes h]
  rfl

theorem edits_append (l : LivePage) (before after : List Move) :
    l.edits (before ++ after) = l.edits before ++ (l.run before).edits after := by
  induction before generalizing l with
  | nil => rfl
  | cons m before ih =>
      show (l.edit? m).toList ++ (l.step m).edits (before ++ after) = _
      rw [ih, ← List.append_assoc]
      rfl

theorem selections_run (l : LivePage) (moves : List Move) :
    (l.run moves).page.snapshot.selections = l.page.snapshot.selections.edits (l.edits moves) := by
  induction moves generalizing l with
  | nil => rfl
  | cons m moves ih =>
      rw [run_cons, ih, selections_step, edits]
      simp only [SelectionList.edits, List.foldl_append]

end LivePage

end InstanceConsole

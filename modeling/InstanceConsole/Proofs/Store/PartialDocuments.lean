import InstanceConsole.Proofs.Selection.Counts
import InstanceConsole.Proofs.Store.StateDocument

/-!
# Stored states from other times

A file may have been written when the state had fewer fields, or when it has more of them than
here. Members that are not there leave their fields at the defaults, and members of other names are
passed over, whatever they hold. The counts beside the selections may so be missing or belong to
other selections. The list that a session begins with takes them from the selections it has.

The names of members are texts: with an escaped half of a surrogate pair in a name, the whole
document is refused. Timestamps are loaded as their texts stand for them.
-/

set_option autoImplicit false

namespace InstanceConsole.StateFile

/-- **Every document of a state loads without some of its members and with others besides.** The
members that are found, as far as their names are known, are those of the state but for the removed
ones. The state that is loaded has these fields at their defaults and the others as they are read,
which is as they were when every leap second in them ends a minute. Its list of selections is as
documented, whichever of the counts are missing. -/
theorem partial_documents_load (s : StoredState) (removed : List String)
    (found : List (String × Json))
    (h : found.filter (fun m => m.1 ∈ StoredState.fieldNames) =
      s.members.filter fun m => m.1 ∉ removed) :
    let loaded := (s.except removed).asRead
    (∀ text, Json.read text = some (.record found) → decode text = .ok loaded) ∧
    (∀ text ∈ [(Json.record found).compact, (Json.record found).pretty],
      decode text = .ok loaded) ∧
    (loaded = s.except removed ↔ ∀ t ∈ (s.except removed).timestamps, t.LeapEndsMinute) ∧
    loaded.selectionList.selections = loaded.selections ∧
    loaded.selectionList.Documented := by
  intro loaded
  have hdecode : ∀ text, Json.read text = some (.record found) → decode text = .ok loaded := by
    intro text hread
    rw [decode, hread, Option.bind_some, StoredState.ofJson?_record h]
  refine ⟨hdecode, ?_, StoredState.asRead_eq_self_iff, rfl, ?_⟩
  · intro text htext
    apply hdecode
    simp only [List.mem_cons, List.not_mem_nil, or_false] at htext
    rcases htext with rfl | rfl
    · exact Json.read_compact _
    · exact Json.read_pretty _
  · exact SelectionList.documented_restore _ _

/-- A selection that was kept without the counts, and between other members. -/
theorem partial_documents_load_uncounted :
    let kept : Selection := { selectionId := 5, totalCount := 2 }
    let theme : Json := .obj [(none, .arr [.null, .num (.decimal true 0 400)]), (none, .bool true)]
    decode (Json.record [("theme", theme), ("selections", .arr [kept.toJson]), ("theme", .null),
        ("running", .nat 4), ("incidents", .nat 0)]).pretty =
      .ok { selections := [kept], running := 4 } ∧
    ({ selections := [kept], running := 4 } : StoredState).selectionList =
      { selections := [kept], rollingSelectionIndex := 5, selectionCount := 1,
        instancesInSelectionsCount := 2 } := by
  intro kept theme
  have hload := partial_documents_load
    { filter := some {}, filterCount := 9, selections := [kept], rollingSelectionIndex := 7,
      selectionCount := 1, instancesInSelectionsCount := 2, running := 4 }
    ["filter", "filterCount", "rollingSelectionIndex", "selectionCount",
     "instancesInSelectionsCount"]
    [("theme", theme), ("selections", .arr [kept.toJson]), ("theme", .null),
     ("running", .nat 4), ("incidents", .nat 0)] rfl
  exact ⟨hload.2.1 _ (by simp), rfl⟩

/-- Two documents that do not load as they should: one has a member beside those of a state whose
name is no text, and one holds a leap second in the middle of a minute. -/
theorem some_documents_load_otherwise :
    let unnamed : Json := .obj [(none, .nat 1)]
    let kept : StoredState := { selections := [.sinceLeap] }
    Json.read "\x7b\"\\ud800\":1\x7d" = some unnamed ∧
      decode "\x7b\"\\ud800\":1\x7d" = .error .corrupt ∧
      decode (encode kept) ≠ .ok kept := by
  intro unnamed kept
  have hread : Json.read "\x7b\"\\ud800\":1\x7d" = some unnamed := rfl
  refine ⟨hread, by rw [decode, hread]; rfl, ?_⟩
  rw [decode_encode]
  intro hsame
  have hleap := StoredState.asRead_eq_self_iff.mp (Except.ok.inj hsame) .leapWithinMinute
  exact absurd (hleap (by decide)) (by decide)

end InstanceConsole.StateFile

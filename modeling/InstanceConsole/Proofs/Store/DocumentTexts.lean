import InstanceConsole.Proofs.Store.StateDocument

/-!
# Documents read back from their texts

What a console sends, receives and stores is a text, compact or indented. Either text of a document
stands for the value that it was written for: what is left out of it, such as an empty list, is
what an absent member is read as.

Of timestamps a text tells less than they are. Only the end of a minute has a name for its leap
second, `:60`; after any other second a leap second is written as the plain second that comes next.
So a document stands for its value as it is read, which is the value itself exactly when no
timestamp in it is such a leap second.
-/

set_option autoImplicit false

namespace InstanceConsole

namespace Json

variable {α : Type} {toJson : α → Json} {decode : Json → Option α}
variable {asRead : α → α} {timestamps : α → List Timestamp}

/-- Both texts of the document of every value stand for that value as it is read. This is the value
itself exactly when all leap seconds in it end minutes. -/
structure RoundTrips (toJson : α → Json) (decode : Json → Option α) (asRead : α → α)
    (timestamps : α → List Timestamp) : Prop where
  compact (a : α) : (read (toJson a).compact).bind decode = some (asRead a)
  pretty (a : α) : (read (toJson a).pretty).bind decode = some (asRead a)
  asRead_eq_self_iff (a : α) : asRead a = a ↔ ∀ t ∈ timestamps a, t.LeapEndsMinute

/-- A document is read back from its texts, so it is enough that the value is read back from it. -/
theorem roundTrips_of_decode (hdecode : ∀ a, decode (toJson a) = some (asRead a))
    (hself : ∀ {a}, asRead a = a ↔ ∀ t ∈ timestamps a, t.LeapEndsMinute) :
    RoundTrips toJson decode asRead timestamps where
  compact a := by rw [read_compact, Option.bind_some, hdecode]
  pretty a := by rw [read_pretty, Option.bind_some, hdecode]
  asRead_eq_self_iff _ := hself

end Json

/-- **Documents read back from their texts**, those of criteria, queries, payloads, answers,
selections, filters and stored states. The value that is read is the one that was written when every
leap second in it ends a minute. Another leap second is read as the second that comes next, and all
else as it was. In the text of a query every member is found again by the part that it comes from,
the criteria or the exclusions. -/
theorem documents_roundTrip :
    (Json.RoundTrips Criteria.toJson Criteria.ofJson? Criteria.asRead Criteria.timestamps ∧
      Json.RoundTrips SelectionQuery.toJson (SelectionQuery.ofJson? 0) SelectionQuery.asRead
        SelectionQuery.timestamps ∧
      Json.RoundTrips SelectionPayload.toJson (SelectionPayload.ofJson? 0) SelectionPayload.asRead
        SelectionPayload.timestamps ∧
      Json.RoundTrips InstancesDetails.toJson InstancesDetails.ofJson? InstancesDetails.asRead
        InstancesDetails.timestamps ∧
      Json.RoundTrips Selection.toJson (Selection.ofJson? 0) Selection.asRead
        Selection.timestamps ∧
      Json.RoundTrips Filter.toJson Filter.ofJson? id (fun _ => []) ∧
      Json.RoundTrips StoredState.toJson StoredState.ofJson? StoredState.asRead
        StoredState.timestamps) ∧
    (∀ t : Timestamp, ¬ t.LeapEndsMinute →
      t.asRead.date = t.date ∧ t.asRead.hour = t.hour ∧ t.asRead.minute = t.minute ∧
        (t.asRead.second : Nat) = t.second + 1 ∧ (t.asRead.nano : Nat) = t.nano - 1000000000) ∧
    ∀ (q : SelectionQuery), ∀ text ∈ [q.toJson.compact, q.toJson.pretty],
      ∃ fields, (Json.read text).bind (Json.openRecord? (Criteria.fieldNames ++ ["excludeIds"])) =
          some fields ∧
        Criteria.ofFields? fields = some q.criteria.asRead ∧
        fields.defaulted "excludeIds" [] (Json.list? Json.text?) = some q.excludeIds := by
  refine ⟨⟨Json.roundTrips_of_decode Criteria.ofJson?_toJson Criteria.asRead_eq_self_iff,
    Json.roundTrips_of_decode (SelectionQuery.ofJson?_toJson (by decide))
      SelectionQuery.asRead_eq_self_iff,
    Json.roundTrips_of_decode (SelectionPayload.ofJson?_toJson (by decide))
      SelectionPayload.asRead_eq_self_iff,
    Json.roundTrips_of_decode InstancesDetails.ofJson?_toJson InstancesDetails.asRead_eq_self_iff,
    Json.roundTrips_of_decode (Selection.ofJson?_toJson (by decide)) Selection.asRead_eq_self_iff,
    Json.roundTrips_of_decode Filter.ofJson?_toJson (by simp),
    Json.roundTrips_of_decode StoredState.ofJson?_toJson StoredState.asRead_eq_self_iff⟩, ?_, ?_⟩
  · intro t ht
    obtain ⟨hleap, hsecond⟩ := Timestamp.not_leapEndsMinute_iff.mp ht
    exact Timestamp.asRead_of_leap hleap hsecond
  · intro q text htext
    obtain ⟨fields, hopen, hparts⟩ := q.openRecord?_toJson
    have hread : Json.read text = some q.toJson := by
      simp only [List.mem_cons, List.not_mem_nil, or_false] at htext
      rcases htext with rfl | rfl
      · exact Json.read_compact _
      · exact Json.read_pretty _
    refine ⟨fields, ?_, hparts⟩
    rw [hread, Option.bind_some, hopen]

/-- Both texts of criteria with a leap second in the middle of a minute stand for others. -/
theorem criteria_not_read_back :
    (Json.read Criteria.fromLeap.toJson.compact).bind Criteria.ofJson? ≠ some .fromLeap ∧
      (Json.read Criteria.fromLeap.toJson.pretty).bind Criteria.ofJson? ≠ some .fromLeap := by
  have hdecode : Criteria.ofJson? Criteria.fromLeap.toJson ≠ some .fromLeap := by
    rw [Criteria.ofJson?_toJson]
    intro hsame
    have hafter : some Timestamp.leapWithinMinute.asRead = some Timestamp.leapWithinMinute :=
      congrArg Criteria.startDateAfter (Option.some.inj hsame)
    exact Timestamp.asRead_leapWithinMinute_ne (Option.some.inj hafter)
  rw [Json.read_compact, Json.read_pretty, Option.bind_some]
  exact ⟨hdecode, hdecode⟩

end InstanceConsole

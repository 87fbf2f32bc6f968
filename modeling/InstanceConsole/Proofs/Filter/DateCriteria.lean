import InstanceConsole.Filter.Criteria
import InstanceConsole.Proofs.Calendar.Order

/-!
# What the dates of a filter ask for

A date becomes the range from the first moment of its day to that of the next day. The range holds
just the moments of that day, also where the calendar ends and the range has no upper bound.
-/

set_option autoImplicit false

namespace InstanceConsole

/-- A moment is in the range from one timestamp on and before another. Either may be absent, and
does not restrict the range then. -/
def Timestamp.InRange (t : Timestamp) (after before : Option Timestamp) : Prop :=
  (∀ a ∈ after, a ≤ t) ∧ ∀ b ∈ before, t < b

/-- The range of a day holds the moments of that day. -/
theorem Timestamp.inRange_day_iff (t : Timestamp) (date : Option Date) :
    t.InRange (date.map startOfDay) ((date.bind Date.next?).map startOfDay) ↔
      ∀ d ∈ date, t.date = d := by
  cases date with
  | none => simp [InRange]
  | some d => simp [InRange, t.date_eq_iff d]

/-- **A date criterion means exactly that day.** Take any filter and any moment, which may be in a
leap second. It meets the bounds of the criteria for the start if and only if its date is the start
date of the filter, if there is one, and it is the same for the end. -/
theorem Filter.date_criteria_mean_days (f : Filter) (t : Timestamp) :
    (t.InRange f.criteria.startDateAfter f.criteria.startDateBefore ↔
      ∀ d ∈ f.startDate, t.date = d) ∧
    (t.InRange f.criteria.endDateAfter f.criteria.endDateBefore ↔
      ∀ d ∈ f.endDate, t.date = d) :=
  ⟨t.inRange_day_iff f.startDate, t.inRange_day_iff f.endDate⟩

end InstanceConsole

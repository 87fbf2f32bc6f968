import InstanceConsole.Calendar.Timestamp
import InstanceConsole.Proofs.Calendar.DateText
import Mathlib.Data.Prod.Lex
import Mathlib.Order.Fin.Basic

/-!
# The order of days and moments

Dates and timestamps are ordered by their parts, the larger part first. The day after a date is the
next one in this order: no date lies between the two (`lt_next?_iff`), and only the last day of the
calendar has none after it (`isTop_of_next?`). So the moments of a day are those from its start on
and before the start of the next day, `date_eq_iff`. A leap second belongs to the second before it,
and so to the day of that second.
-/

set_option autoImplicit false

namespace InstanceConsole

namespace Calendar

theorem exists?_iff {year : Int} {month day : Nat} :
    exists? year month day = true ↔
      firstYear ≤ year ∧ year ≤ lastYear ∧ 1 ≤ month ∧ month ≤ 12 ∧ 1 ≤ day ∧
        day ≤ daysInMonth year month := by
  simp [exists?, and_assoc]

theorem one_le_daysInMonth (year : Int) (month : Nat) : 1 ≤ daysInMonth year month := by
  unfold daysInMonth
  split
  · split <;> omega
  · split <;> omega

end Calendar

namespace Date

/-! ## Dates -/

/-- The parts of a date in the order of their weight. -/
def key (d : Date) : Int ×ₗ Nat ×ₗ Nat := toLex (d.year, toLex (d.month, d.day))

theorem key_injective : Function.Injective key := by
  intro d e h
  cases d
  cases e
  simpa [key] using h

instance : LinearOrder Date := LinearOrder.lift' key key_injective

theorem lt_iff {d e : Date} :
    d < e ↔ d.year < e.year ∨
      d.year = e.year ∧ (d.month < e.month ∨ d.month = e.month ∧ d.day < e.day) := by
  show key d < key e ↔ _
  simp [key, Prod.Lex.toLex_lt_toLex]

theorem bounds (d : Date) :
    Calendar.firstYear ≤ d.year ∧ d.year ≤ Calendar.lastYear ∧ 1 ≤ d.month ∧ d.month ≤ 12 ∧
      1 ≤ d.day ∧ d.day ≤ Calendar.daysInMonth d.year d.month :=
  Calendar.exists?_iff.mp d.valid

/-! ## The next day -/

/-- What may follow a date: the next day of its month, the first of the next month or of the next
year, or nothing. -/
inductive Followed (d : Date) : Option Date → Prop
  | inMonth (e : Date) (hyear : e.year = d.year) (hmonth : e.month = d.month)
      (hday : e.day = d.day + 1) : Followed d (some e)
  | inYear (e : Date) (hend : d.day = Calendar.daysInMonth d.year d.month)
      (hyear : e.year = d.year) (hmonth : e.month = d.month + 1) (hday : e.day = 1) :
      Followed d (some e)
  | newYear (e : Date) (hmonth : d.month = 12) (hday : d.day = 31) (hyear : e.year = d.year + 1)
      (hfirst : e.month = 1 ∧ e.day = 1) : Followed d (some e)
  | last (hyear : d.year = Calendar.lastYear) (hmonth : d.month = 12) (hday : d.day = 31) :
      Followed d none

theorem ofParts?_of_exists {year : Int} {month day : Nat}
    (h : Calendar.exists? year month day = true) :
    ofParts? year month day = some ⟨year, month, day, h⟩ := dif_pos h

theorem followed_next? (d : Date) : d.Followed d.next? := by
  obtain ⟨hfirst, hlast, hmonth, hmonth', hday, hday'⟩ := d.bounds
  unfold next?
  split
  · have hexists : Calendar.exists? d.year d.month (d.day + 1) = true :=
      Calendar.exists?_iff.mpr (by omega)
    rw [ofParts?_of_exists hexists]
    exact .inMonth _ rfl rfl rfl
  · have hend : d.day = Calendar.daysInMonth d.year d.month := by omega
    split
    · have hone := Calendar.one_le_daysInMonth d.year (d.month + 1)
      have hexists : Calendar.exists? d.year (d.month + 1) 1 = true :=
        Calendar.exists?_iff.mpr (by omega)
      rw [ofParts?_of_exists hexists]
      exact .inYear _ hend rfl rfl rfl
    · have hdecember : d.month = 12 := by omega
      have hday : d.day = 31 := by
        rw [hend, hdecember]
        rfl
      by_cases hmore : d.year < Calendar.lastYear
      · have hone := Calendar.one_le_daysInMonth (d.year + 1) 1
        have hexists : Calendar.exists? (d.year + 1) 1 1 = true :=
          Calendar.exists?_iff.mpr (by omega)
        rw [ofParts?_of_exists hexists]
        exact .newYear _ hdecember hday rfl ⟨rfl, rfl⟩
      · have hyear : d.year = Calendar.lastYear := by omega
        have hnone : ofParts? (d.year + 1) 1 1 = none := by
          rw [hyear]
          rfl
        rw [hnone]
        exact .last hyear hdecember hday

/-- No date lies between a date and the next one. -/
theorem lt_next?_iff {d e : Date} (h : d.next? = some e) (x : Date) : x < e ↔ x ≤ d := by
  have hfollowed := d.followed_next?
  have hx := x.bounds
  rw [h] at hfollowed
  rw [← not_lt, lt_iff, lt_iff]
  cases hfollowed with
  | inMonth _ hyear hmonth hday => omega
  | inYear _ hend hyear hmonth hday =>
      -- A date of the same month is no later than the end of it.
      have hsame : x.year = d.year → x.month = d.month → x.day ≤ d.day := by
        intro hy hm
        rw [hend, ← hy, ← hm]
        exact hx.2.2.2.2.2
      omega
  | newYear _ hmonth hday hyear hfirst =>
      have hday31 := (Calendar.le_of_exists? x.valid).2
      omega

/-- A date without a next one is the last of the calendar. -/
theorem isTop_of_next? {d : Date} (h : d.next? = none) : IsTop d := by
  have hfollowed := d.followed_next?
  rw [h] at hfollowed
  cases hfollowed with
  | last hyear hmonth hday =>
      intro x
      have hx := x.bounds
      have hday31 := (Calendar.le_of_exists? x.valid).2
      rw [← not_lt, lt_iff]
      omega

theorem le_iff_forall_next? (x d : Date) : x ≤ d ↔ ∀ e ∈ d.next?, x < e := by
  cases h : d.next? with
  | none => exact iff_of_true (isTop_of_next? h x) (by simp)
  | some e => simp [lt_next?_iff h]

end Date

namespace Timestamp

/-! ## Moments -/

/-- The time of day, with its parts in the order of their weight. -/
def clock (t : Timestamp) : Fin 24 ×ₗ Fin 60 ×ₗ Fin 60 ×ₗ Fin 2000000000 :=
  toLex (t.hour, toLex (t.minute, toLex (t.second, t.nano)))

def key (t : Timestamp) : Date ×ₗ Fin 24 ×ₗ Fin 60 ×ₗ Fin 60 ×ₗ Fin 2000000000 :=
  toLex (t.date, t.clock)

theorem key_injective : Function.Injective key := by
  intro s t h
  cases s
  cases t
  simpa [key, clock] using h

instance : LinearOrder Timestamp := LinearOrder.lift' key key_injective

theorem clock_startOfDay_le (d : Date) (t : Timestamp) : (startOfDay d).clock ≤ t.clock := by
  have hseconds : toLex ((0 : Fin 60), (0 : Fin 2000000000)) ≤ toLex (t.second, t.nano) :=
    Prod.Lex.toLex_mono ⟨Fin.zero_le _, Fin.zero_le _⟩
  have hminutes : toLex ((0 : Fin 60), toLex ((0 : Fin 60), (0 : Fin 2000000000))) ≤
      toLex (t.minute, toLex (t.second, t.nano)) :=
    Prod.Lex.toLex_mono ⟨Fin.zero_le _, hseconds⟩
  exact Prod.Lex.toLex_mono ⟨Fin.zero_le _, hminutes⟩

theorem startOfDay_le_iff {d : Date} {t : Timestamp} : startOfDay d ≤ t ↔ d ≤ t.date := by
  show key (startOfDay d) ≤ key t ↔ _
  rw [key, key, Prod.Lex.toLex_le_toLex, le_iff_lt_or_eq (a := d)]
  exact or_congr_right (and_iff_left (clock_startOfDay_le d t))

theorem lt_startOfDay_iff {d : Date} {t : Timestamp} : t < startOfDay d ↔ t.date < d := by
  rw [← not_le, startOfDay_le_iff, not_le]

/-- **A day is the moments from its start on and before the start of the next day.** -/
theorem date_eq_iff (t : Timestamp) (d : Date) :
    t.date = d ↔ startOfDay d ≤ t ∧ ∀ e ∈ d.next?, t < startOfDay e := by
  simp only [startOfDay_le_iff, lt_startOfDay_iff]
  rw [← Date.le_iff_forall_next?, eq_comm, le_antisymm_iff]

end Timestamp

end InstanceConsole

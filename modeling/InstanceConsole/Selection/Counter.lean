/-!
# Counters

Counts of 64 bits that stop at their bounds.
-/

set_option autoImplicit false

namespace InstanceConsole.Counter

/-- The greatest count. -/
def greatest : UInt64 := UInt64.ofNat (UInt64.size - 1)

/-- A number as a count, or the greatest count when it is larger. -/
def ofNat (n : Nat) : UInt64 := UInt64.ofNat (min n (UInt64.size - 1))

/-- The sum, or the greatest count. -/
def add (a b : UInt64) : UInt64 := ofNat (a.toNat + b.toNat)

/-- The difference, or zero. -/
def sub (a b : UInt64) : UInt64 := ofNat (a.toNat - b.toNat)

theorem toNat_ofNat (n : Nat) : (ofNat n).toNat = min n (UInt64.size - 1) := by
  have hlt : min n (UInt64.size - 1) < UInt64.size := by
    simp only [UInt64.size]
    omega
  exact Nat.mod_eq_of_lt hlt

theorem toNat_add (a b : UInt64) : (add a b).toNat = min (a.toNat + b.toNat) (UInt64.size - 1) :=
  toNat_ofNat _

theorem toNat_sub (a b : UInt64) : (sub a b).toNat = a.toNat - b.toNat := by
  rw [sub, toNat_ofNat]
  have := a.toNat_lt
  simp only [UInt64.size]
  omega

end InstanceConsole.Counter

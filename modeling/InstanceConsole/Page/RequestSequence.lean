/-!
# Request numbers

Requests of one kind are numbered as they are issued, from one on, with numbers of 64 bits that
begin again at zero after the greatest. Only the answer to the latest of them counts.
-/

set_option autoImplicit false

namespace InstanceConsole

/-- The number of the latest request; zero before the first. -/
structure RequestSequence where
  latest : UInt64 := 0
  deriving DecidableEq, Repr

namespace RequestSequence

/-- Issues the next number. -/
def issue (s : RequestSequence) : UInt64 × RequestSequence := (s.latest + 1, ⟨s.latest + 1⟩)

def isLatest (s : RequestSequence) (token : UInt64) : Bool := token == s.latest

end RequestSequence

end InstanceConsole

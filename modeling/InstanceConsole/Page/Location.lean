/-!
# Locations and the history

The part of a URL that the page reads and writes, and the history of the locations visited.
-/

set_option autoImplicit false

namespace InstanceConsole

structure Location where
  pathname : String
  /-- The query string with its question mark, or nothing. -/
  search : String
  deriving DecidableEq, Repr

/-- The locations visited: the current one, and those before it, latest first. -/
structure History where
  current : Location
  earlier : List Location := []
  deriving DecidableEq, Repr

namespace History

/-- Visits a location. -/
def push (h : History) (location : Location) : History := ⟨location, h.current :: h.earlier⟩

/-- The locations visited, oldest first. -/
def entries (h : History) : List Location := (h.current :: h.earlier).reverse

end History

end InstanceConsole

import InstanceConsole.Text.Utf8
import InstanceConsole.Web.Url.Error

/-!
# Domain names in URLs

A domain name in a URL stands in ASCII and in lower case. How names with other characters are
turned into ASCII is a standard of its own with tables for all of Unicode, which is no part of the
console. It is a parameter here: whatever reads a URL is given a mapping of names.
-/

set_option autoImplicit false

namespace InstanceConsole

/-- A name in ASCII for every domain name that is not refused. -/
abbrev DomainMapping := List Char → Option (List Char)

namespace Domain

/-- Whether a character in ASCII cannot stand in a domain name. -/
def isForbidden (c : Char) : Bool :=
  c.toNat ≤ 0x20 || c.toNat = 0x7F ||
    c ∈ ['#', '%', '/', ':', '<', '>', '?', '@', '[', '\\', ']', '^', '|']

/-- The form of a domain name that stands in a URL. -/
def toAscii (mapping : DomainMapping) (bytes : List UInt8) : Except UrlError (List Char) :=
  match ((Utf8.decodeStrict bytes).map String.toList).bind mapping with
  | some name => if name.any isForbidden then .error .invalidInternationalName else .ok name
  | none => .error .invalidInternationalName

/-- What a label begins with that encodes other characters. -/
def encodingMark : List Char := ['x', 'n', '-', '-']

/-- The mapping of the names that need no table: those in ASCII that encode nothing, which are put
in lower case. All others are refused. -/
def plainMapping : DomainMapping := fun name =>
  let lower := name.map Char.toLower
  if name.all (·.toNat < 0x80) && (lower.splitOn '.').all (!encodingMark.isPrefixOf ·) then
    some lower
  else none

end Domain

end InstanceConsole

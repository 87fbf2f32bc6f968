import InstanceConsole.Web.FormEncoding

/-!
# Percent encoding in URLs

Each part of a URL has a set of characters that stand in it as percent signs with two digits. All
the sets hold the control characters and everything outside ASCII.
-/

set_option autoImplicit false

namespace InstanceConsole.Percent

/-- A set of characters that are encoded in some part of a URL. -/
abbrev EncodeSet := Char → Bool

/-- The control characters and everything outside ASCII. -/
def controls : EncodeSet := fun c => c.toNat < 0x20 || 0x7E < c.toNat

def fragment : EncodeSet := fun c => controls c || c ∈ [' ', '"', '<', '>', '`']

def query : EncodeSet := fun c => controls c || c ∈ [' ', '"', '#', '<', '>']

/-- The set for queries of URLs with a special scheme. -/
def specialQuery : EncodeSet := fun c => query c || c = '\''

def path : EncodeSet := fun c => query c || c ∈ ['?', '^', '`', '\x7b', '\x7d']

def userinfo : EncodeSet := fun c =>
  path c || c ∈ ['/', ':', ';', '=', '@', '[', '\\', ']', '|']

/-- Encodes the characters of a set. -/
def encode (set : EncodeSet) (cs : List Char) : String :=
  String.ofList <| cs.flatMap fun c =>
    if set c then (Utf8.encodeChar c).flatMap FormEncoding.percentEncodeByte else [c]

/-- The bytes of a text, each percent sign with two digits standing for one byte. -/
def decode (cs : List Char) : List UInt8 := FormEncoding.percentDecode (Utf8.encode cs)

end InstanceConsole.Percent

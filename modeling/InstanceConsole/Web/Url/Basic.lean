import InstanceConsole.Web.PercentEncoding
import InstanceConsole.Web.Url.Address

/-!
# URLs

A URL by its parts. The path is a list of segments, or one rigid text that no relative reference
can build upon. Special schemes are those of the web: they always have a host, and most of them have
a default port, which is left out.
-/

set_option autoImplicit false

namespace InstanceConsole

inductive Host
  | name (text : String)
  | ipv4 (address : Nat)
  | ipv6 (pieces : List Nat)
  deriving DecidableEq, Repr

inductive UrlPath
  /-- A text that is no hierarchy. -/
  | rigid (text : String)
  | segments (list : List String)
  deriving DecidableEq, Repr

structure Url where
  scheme : String
  username : String := ""
  password : String := ""
  host : Option Host
  port : Option Nat := none
  path : UrlPath
  query : Option String := none
  fragment : Option String := none
  deriving DecidableEq, Repr

namespace Host

def text : Host → String
  | .name text => text
  | .ipv4 address => String.ofList (Address.chars4 address)
  | .ipv6 pieces => "[" ++ String.ofList (Address.chars6 pieces) ++ "]"

end Host

namespace Url

/-- The schemes of the web and of local files. -/
def isSpecial (scheme : String) : Bool :=
  scheme ∈ ["http", "https", "ws", "wss", "ftp", "file"]

/-- The port that a scheme has when none is given. -/
def defaultPort? (scheme : String) : Option Nat :=
  if scheme = "http" ∨ scheme = "ws" then some 80
  else if scheme = "https" ∨ scheme = "wss" then some 443
  else if scheme = "ftp" then some 21
  else none

/-! ## As text -/

/-- The path as it stands in the text; each segment follows a slash. -/
def pathText (u : Url) : String :=
  match u.path with
  | .rigid text => text
  | .segments list => String.join (list.map ("/" ++ ·))

/-- The user name and the password in front of the host. -/
def credentialsText (u : Url) : String :=
  if u.username = "" ∧ u.password = "" then ""
  else if u.password = "" then u.username ++ "@"
  else u.username ++ ":" ++ u.password ++ "@"

/-- What stands between the scheme and the path. A path that would look like a host without one
is kept apart by a dot. -/
def authorityText (u : Url) : String :=
  match u.host with
  | some host =>
      "//" ++ u.credentialsText ++ host.text ++
        (match u.port with
          | some port => ":" ++ Numeral.text port
          | none => "")
  | none =>
      match u.path with
      | .segments ("" :: _ :: _) => "/."
      | _ => ""

def text (u : Url) : String :=
  u.scheme ++ ":" ++ u.authorityText ++ u.pathText ++
    (match u.query with
      | some query => "?" ++ query
      | none => "") ++
    (match u.fragment with
      | some fragment => "#" ++ fragment
      | none => "")

/-! ## Paths -/

/-- The URL with a slash at the end of its path. An empty rigid path cannot begin with a slash,
so there the slash is encoded. -/
def withTrailingSlash (u : Url) : Url :=
  match u.path with
  | .rigid text =>
      if text = "" then { u with path := .rigid "%2F" }
      else if text.toList.getLast? = some '/' then u
      else { u with path := .rigid (text ++ "/") }
  | .segments list =>
      if list.getLast? = some "" then u else { u with path := .segments (list ++ [""]) }

/-- The URL that a relative path leads to. It takes the place of the last segment, and of the
query and the fragment. -/
def join (u : Url) (relative : List String) : Except UrlError Url :=
  match u.path with
  | .rigid _ => .error .relativeToRigidBase
  | .segments list =>
      .ok { u with path := .segments (list.dropLast ++ relative), query := none, fragment := none }

end Url

end InstanceConsole

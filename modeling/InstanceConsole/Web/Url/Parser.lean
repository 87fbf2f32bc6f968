import InstanceConsole.Text.Blank
import InstanceConsole.Web.Url.Basic
import InstanceConsole.Web.Url.Domain

/-!
# Reading URLs

A text is cut into its parts from both ends: the fragment begins at the first number sign, the
query at the first question mark before it, and the authority ends where the path begins. In
special schemes a backslash counts as a slash.
-/

set_option autoImplicit false

namespace InstanceConsole.Url

/-! ## Cutting -/

/-- The text without control characters and spaces at its ends, and without tabs and line breaks
anywhere. -/
def clean (cs : List Char) : List Char :=
  let isEnd (c : Char) : Bool := c.toNat ≤ 0x20
  let trimmed := ((cs.dropWhile isEnd).reverse.dropWhile isEnd).reverse
  trimmed.filter fun c => c ≠ '\t' && c ≠ '\n' && c ≠ '\r'

/-- The text before the first mark, and that after it if there is one. -/
def cutAt (mark : Char) (cs : List Char) : List Char × Option (List Char) :=
  match cs.dropWhile (· ≠ mark) with
  | [] => (cs, none)
  | _ :: rest => (cs.takeWhile (· ≠ mark), some rest)

/-- The text before the last mark, if there is one, and that after it. -/
def cutAtLast (mark : Char) (cs : List Char) : Option (List Char) × List Char :=
  match cutAt mark cs.reverse with
  | (rest, front) => (front.map List.reverse, rest.reverse)

/-- The scheme in lower case, and what follows its colon. -/
def scheme? (cs : List Char) : Option (String × List Char) :=
  match cs, cutAt ':' cs with
  | first :: _, (front, some rest) =>
      if first.isAlpha && front.all fun c => c.isAlphanum || c = '+' || c = '-' || c = '.' then
        some (String.ofList (front.map Char.toLower), rest)
      else none
  | _, _ => none

/-- Whether a character separates segments. -/
def isSlash (special : Bool) (c : Char) : Bool := c = '/' || (special && c = '\\')

/-! ## Hosts -/

/-- Whether a character cannot stand in a host of a scheme that is not special. -/
def isForbiddenHostChar (c : Char) : Bool :=
  c ∈ ['\x00', '\t', '\n', '\r', ' ', '#', '/', ':', '<', '>', '?', '@', '[', '\\', ']', '^', '|']

/-- An address in brackets. -/
def bracketed (cs : List Char) : Except UrlError Host :=
  match cs.getLast?, Address.ofText6? cs.dropLast with
  | some ']', some pieces => .ok (.ipv6 pieces)
  | _, _ => .error .invalidIpv6Address

/-- A host of a special scheme: an address or a domain name. -/
def specialHost (domains : DomainMapping) (cs : List Char) : Except UrlError Host :=
  match cs with
  | '[' :: inner => bracketed inner
  | _ => do
      let name ← Domain.toAscii domains (Percent.decode cs)
      if name = [] then .error .emptyHost
      else if Address.endsInNumber name then (Address.ofName4 name).map .ipv4
      else .ok (.name (String.ofList name))

/-- A host of any other scheme. -/
def plainHost (cs : List Char) : Except UrlError Host :=
  match cs with
  | '[' :: inner => bracketed inner
  | _ =>
      if cs.any isForbiddenHostChar then .error .invalidDomainCharacter
      else .ok (.name (Percent.encode Percent.controls cs))

/-- The text before the colon of the port, which does not stand in brackets, and what follows
that colon. -/
def cutPort (inBrackets : Bool) : List Char → List Char × Option (List Char)
  | [] => ([], none)
  | c :: cs =>
      if c = ':' && !inBrackets then ([], some cs)
      else
        let inBrackets := if c = '[' then true else if c = ']' then false else inBrackets
        let (front, rest) := cutPort inBrackets cs
        (c :: front, rest)

/-- A port, unless it is empty or the one that the scheme has anyway. -/
def portOf (scheme : String) (cs : List Char) : Except UrlError (Option Nat) :=
  if cs = [] then .ok none
  else match (Numeral.value? cs).filter (· < 0x10000) with
    | some n => .ok (if defaultPort? scheme = some n then none else some n)
    | none => .error .invalidPort

/-- The user name and the password. -/
def credentials (cs : List Char) : String × String :=
  let (username, password) := cutAt ':' cs
  (Percent.encode Percent.userinfo username,
   Percent.encode Percent.userinfo (password.getD []))

/-! ## Paths -/

/-- Whether a segment is one dot, which may be encoded. -/
def isSingleDot (segment : List Char) : Bool :=
  String.ofList (segment.map Char.toLower) ∈ [".", "%2e"]

/-- Whether a segment is two dots, which may be encoded. -/
def isDoubleDot (segment : List Char) : Bool :=
  String.ofList (segment.map Char.toLower) ∈ ["..", ".%2e", "%2e.", "%2e%2e"]

/-- Whether a segment names a drive: a letter, and a colon or a bar. -/
def isDrive : List Char → Bool
  | [letter, mark] => letter.isAlpha && (mark = ':' || mark = '|')
  | _ => false

/-- The segments so far, last first, without the last one; a drive of a file stays. -/
def shorten (file : Bool) : List String → List String
  | [] => []
  | [segment] => if file && isDrive segment.toList then [segment] else []
  | _ :: rest => rest

/-- The segment as it stands in the path; the drive of a file has a colon. -/
def normalSegment (file : Bool) (before : List String) (segment : List Char) : String :=
  match segment with
  | [letter, _] =>
      if file && before.isEmpty && isDrive segment then String.ofList [letter, ':']
      else Percent.encode Percent.path segment
  | _ => Percent.encode Percent.path segment

/-- Adds segments to those before, last first. Dots are followed and not kept; where they end the
path, it ends in a slash. -/
def addSegments (file : Bool) (before : List String) : List (List Char) → List String
  | [] => before
  | segment :: rest =>
      let next :=
        if isDoubleDot segment then
          if rest.isEmpty then "" :: shorten file before else shorten file before
        else if isSingleDot segment then
          if rest.isEmpty then "" :: before else before
        else normalSegment file before segment :: before
      addSegments file next rest

/-- The segments of a path that begins with a slash, or is empty. -/
def segmentsOf (scheme : String) (cs : List Char) : List String :=
  (addSegments (scheme = "file") [] ((cs.drop 1).splitOnP (isSlash (isSpecial scheme)))).reverse

/-- The segments of a path; in special schemes it has at least one. -/
def pathSegments (scheme : String) (cs : List Char) : List String :=
  if cs = [] ∧ isSpecial scheme = false then [] else segmentsOf scheme cs

/-! ## Whole URLs -/

/-- The query and the fragment, as they stand in the text. -/
structure Tail where
  query : Option (List Char)
  fragment : Option (List Char)

/-- A URL with its query and fragment. -/
def finish (u : Url) (tail : Tail) : Url :=
  let set := if isSpecial u.scheme then Percent.specialQuery else Percent.query
  { u with
    query := tail.query.map (Percent.encode set)
    fragment := tail.fragment.map (Percent.encode Percent.fragment) }

/-- The authority with the path after it, in any scheme but that of files. -/
def withAuthority (domains : DomainMapping) (scheme : String) (cs : List Char) (tail : Tail) :
    Except UrlError Url := do
  let special := isSpecial scheme
  let authority := cs.takeWhile fun c => !isSlash special c
  let rest := cs.dropWhile fun c => !isSlash special c
  let (before, address) := cutAtLast '@' authority
  if before = some [] ∧ address = [] ∧ (rest ≠ [] ∨ tail.query.isSome ∨ tail.fragment.isSome) then
    .error .emptyHost
  let (username, password) := credentials (before.getD [])
  let (hostChars, portChars) := cutPort false address
  if hostChars = [] ∧ (special = true ∨ portChars.isSome) then .error .emptyHost
  let host ← if special then specialHost domains hostChars else plainHost hostChars
  let port ← portOf scheme (portChars.getD [])
  if hostChars = [] ∧ (username ≠ "" ∨ password ≠ "") then .error .emptyHost
  return { scheme, username, password, host := some host, port,
           path := .segments (pathSegments scheme rest) : Url }.finish tail

/-- A host of a file. The local one is not named. -/
def fileHost (domains : DomainMapping) (cs : List Char) : Except UrlError Host := do
  if cs = [] then return .name ""
  let host ← specialHost domains cs
  return if host = .name "localhost" then .name "" else host

/-- The host of a file, and its path, which is empty or begins with a slash. -/
def fileParts (domains : DomainMapping) (cs : List Char) :
    Except UrlError (Host × List Char) :=
  match cs with
  | a :: b :: rest =>
      if isSlash true a && isSlash true b then
        let name := rest.takeWhile fun c => !isSlash true c
        if isDrive name then .ok (.name "", '/' :: rest)
        else (fileHost domains name).map (·, rest.dropWhile fun c => !isSlash true c)
      else if isSlash true a then .ok (.name "", cs)
      else .ok (.name "", '/' :: cs)
  | [a] => .ok (.name "", if isSlash true a then [a] else ['/', a])
  | [] => .ok (.name "", [])

/-- A URL of a file. Its path does not begin with empty segments, and has no host before a
drive. -/
def ofFile (domains : DomainMapping) (cs : List Char) (tail : Tail) : Except UrlError Url := do
  let (host, path) ← fileParts domains cs
  let segments := segmentsOf "file" path
  let trimmed := segments.dropWhile (· = "")
  let list := if trimmed = [] then [""] else trimmed
  let hasDrive := (segments.head?.map fun s => isDrive s.toList).getD false
  return { scheme := "file", host := some (if hasDrive then .name "" else host),
           path := .segments list : Url }.finish tail

/-- A URL of a scheme that is not special and has no authority. -/
def withoutAuthority (scheme : String) (cs : List Char) (tail : Tail) : Url :=
  match cs with
  | '/' :: _ => { scheme, host := none, path := .segments (segmentsOf scheme cs) : Url }.finish tail
  | _ =>
      let path := UrlPath.rigid (Percent.encode Percent.controls cs)
      { scheme, host := none, path : Url }.finish tail

/-- The URL that a text stands for. -/
def parse (domains : DomainMapping) (s : String) : Except UrlError Url :=
  match scheme? (clean s.toList) with
  | none => .error .relativeWithoutBase
  | some (scheme, rest) =>
      let (front, fragment) := cutAt '#' rest
      let (main, query) := cutAt '?' front
      let tail : Tail := ⟨query, fragment⟩
      if scheme = "file" then ofFile domains main tail
      else if isSpecial scheme then
        withAuthority domains scheme (main.dropWhile (isSlash true)) tail
      else match main with
        | '/' :: '/' :: rest => withAuthority domains scheme rest tail
        | _ => .ok (withoutAuthority scheme main tail)

end InstanceConsole.Url

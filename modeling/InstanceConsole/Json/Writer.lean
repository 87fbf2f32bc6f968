import InstanceConsole.Json.Value
import InstanceConsole.Text.Numeral

/-!
# JSON text out

Compact text has no gaps. Pretty text puts every item and member on a line of its own, two blanks
deeper than what holds it, and writes empty arrays and objects on one line.
-/

set_option autoImplicit false

namespace InstanceConsole.Json

/-! ## Literals -/

/-- One character inside a string literal: quotes, backslashes and the characters below U+0020
are escaped, by a letter where there is one. -/
def escapeChar (c : Char) : List Char :=
  if c = '"' then ['\\', '"']
  else if c = '\\' then ['\\', '\\']
  else if c = '\x08' then ['\\', 'b']
  else if c = '\x0c' then ['\\', 'f']
  else if c = '\n' then ['\\', 'n']
  else if c = '\r' then ['\\', 'r']
  else if c = '\t' then ['\\', 't']
  else if c.toNat < 0x20 then
    ['\\', 'u', '0', '0', Numeral.hexDigit (c.toNat / 16), Numeral.hexDigit (c.toNat % 16)]
  else [c]

/-- A string literal. One without a text is written as half of a surrogate pair. -/
def writeText : JsonText → List Char
  | some s => '"' :: s.toList.flatMap escapeChar ++ ['"']
  | none => ['"', '\\', 'u', 'd', '8', '0', '0', '"']

def writeInt : Int → List Char
  | .ofNat n => Numeral.digits n
  | .negSucc n => '-' :: Numeral.digits (n + 1)

/-- A numeral. The decimal form always shows its exponent. -/
def writeNumber : JsonNumber → List Char
  | .integer n => writeInt n
  | .decimal negative significand exponent =>
      (if negative then ['-'] else []) ++ Numeral.digits significand ++ 'e' :: writeInt exponent

def writeBool (b : Bool) : List Char :=
  if b then ['t', 'r', 'u', 'e'] else ['f', 'a', 'l', 's', 'e']

def writeNull : List Char := ['n', 'u', 'l', 'l']

/-! ## Compact text -/

mutual

def compactChars : Json → List Char
  | .null => writeNull
  | .bool b => writeBool b
  | .num n => writeNumber n
  | .str s => writeText s
  | .arr items => '[' :: compactItems items ++ [']']
  | .obj members => '{' :: compactMembers members ++ ['}']

/-- The items with a comma between them. -/
def compactItems : List Json → List Char
  | [] => []
  | [item] => compactChars item
  | item :: items => compactChars item ++ ',' :: compactItems items

/-- The members with a comma between them. -/
def compactMembers : List (JsonText × Json) → List Char
  | [] => []
  | [member] => compactMember member
  | member :: members => compactMember member ++ ',' :: compactMembers members

def compactMember : JsonText × Json → List Char
  | (key, value) => writeText key ++ ':' :: compactChars value

end

/-- The text of a document without gaps. -/
def compact (j : Json) : String := String.ofList j.compactChars

/-! ## Pretty text -/

/-- A line break and two blanks for each level. -/
def lineBreak (level : Nat) : List Char := '\n' :: List.replicate (2 * level) ' '

mutual

def prettyChars (level : Nat) : Json → List Char
  | .null => writeNull
  | .bool b => writeBool b
  | .num n => writeNumber n
  | .str s => writeText s
  | .arr [] => ['[', ']']
  | .arr items => '[' :: prettyItems (level + 1) items ++ lineBreak level ++ [']']
  | .obj [] => ['{', '}']
  | .obj members => '{' :: prettyMembers (level + 1) members ++ lineBreak level ++ ['}']

/-- The items, each on a line of its own. -/
def prettyItems (level : Nat) : List Json → List Char
  | [] => []
  | [item] => lineBreak level ++ prettyChars level item
  | item :: items => lineBreak level ++ prettyChars level item ++ ',' :: prettyItems level items

/-- The members, each on a line of its own. -/
def prettyMembers (level : Nat) : List (JsonText × Json) → List Char
  | [] => []
  | [member] => prettyMember level member
  | member :: members => prettyMember level member ++ ',' :: prettyMembers level members

def prettyMember (level : Nat) : JsonText × Json → List Char
  | (key, value) => lineBreak level ++ writeText key ++ ':' :: ' ' :: prettyChars level value

end

/-- The text of a document with a line for each item and member. -/
def pretty (j : Json) : String := String.ofList (j.prettyChars 0)

end InstanceConsole.Json

import InstanceConsole.Text.Numeral
import InstanceConsole.Web.Url.Error

/-!
# Addresses in URLs

Internet addresses of versions 4 and 6. A version 4 address may have one to four numbers, each
decimal, octal after a zero, or hexadecimal after `0x`; the last number fills the bytes that the
others leave. In a version 6 address two colons stand for one or more pieces of zero, and the last
two pieces may be written as a version 4 address.
-/

set_option autoImplicit false

namespace InstanceConsole.Address

/-! ## Version 4 -/

/-- The value of digits in a base, after those with value `acc`. -/
def valueInBase (base acc : Nat) : List Char → Option Nat
  | [] => some acc
  | c :: cs =>
      match Numeral.hexDigit? c with
      | some d => if d < base then valueInBase base (base * acc + d) cs else none
      | none => none

/-- One number of an address in its base. A hexadecimal mark alone is zero. -/
def number? : List Char → Option Nat
  | [] => none
  | '0' :: 'x' :: cs => valueInBase 16 0 cs
  | '0' :: 'X' :: cs => valueInBase 16 0 cs
  | '0' :: c :: cs => valueInBase 8 0 (c :: cs)
  | cs => valueInBase 10 0 cs

/-- The parts of a name between its dots, without an empty last one. -/
def dottedParts (name : List Char) : List (List Char) :=
  let parts := name.splitOn '.'
  if 1 < parts.length ∧ parts.getLast? = some [] then parts.dropLast else parts

/-- Whether a name is to be taken for an address: its last part is a number. -/
def endsInNumber (name : List Char) : Bool :=
  match (dottedParts name).getLast? with
  | none => false
  | some last => (!last.isEmpty && last.all Numeral.isDigit) || (number? last).isSome

/-- The bytes of the numbers in front, and then those that the last number fills. -/
def combine : List Nat → Option Nat
  | [] => none
  | numbers =>
      let front := numbers.dropLast
      let last := numbers.getLastD 0
      if front.all (· < 256) && last < Nat.pow 256 (4 - front.length) then
        some ((front.foldl (fun acc n => 256 * acc + n) 0) * Nat.pow 256 (4 - front.length) + last)
      else none

/-- The address that a name stands for, as a number of 32 bits. -/
def ofName4 (name : List Char) : Except UrlError Nat :=
  let parts := dottedParts name
  if 4 < parts.length then .error .invalidIpv4Address
  else match (parts.mapM number?).bind combine with
    | some address => .ok address
    | none => .error .invalidIpv4Address

/-- Four numbers with dots between them. -/
def chars4 (address : Nat) : List Char :=
  Numeral.digits (address / 0x1000000 % 256) ++ '.' :: Numeral.digits (address / 0x10000 % 256) ++
    '.' :: Numeral.digits (address / 0x100 % 256) ++ '.' :: Numeral.digits (address % 256)

/-! ## Version 6 -/

/-- A piece of one to four hexadecimal digits. -/
def piece? (cs : List Char) : Option Nat :=
  if cs.isEmpty || 4 < cs.length then none else valueInBase 16 0 cs

/-- A decimal byte without needless zeros. -/
def byte? (cs : List Char) : Option Nat :=
  if 1 < cs.length ∧ cs.head? = some '0' then none
  else (Numeral.value? cs).filter (· < 256)

/-- The two pieces that a version 4 address stands for. -/
def embedded? (cs : List Char) : Option (List Nat) := do
  match ← (cs.splitOn '.').mapM byte? with
  | [a, b, c, d] => some [256 * a + b, 256 * c + d]
  | _ => none

/-- The pieces of a text with colons between them; the last of a whole address may be a version 4
address. -/
def pieces? (atEnd : Bool) (cs : List Char) : Option (List Nat) :=
  if cs.isEmpty then some []
  else
    let parts := cs.splitOn ':'
    let last := parts.getLastD []
    if atEnd && '.' ∈ last then do
      let front ← parts.dropLast.mapM piece?
      let back ← embedded? last
      some (front ++ back)
    else parts.mapM piece?

/-- The text before and after the first two colons in a row. -/
def splitAtGap : List Char → Option (List Char × List Char)
  | ':' :: ':' :: rest => some ([], rest)
  | c :: rest => (splitAtGap rest).map fun (front, back) => (c :: front, back)
  | [] => none

/-- The eight pieces of an address. -/
def ofText6? (cs : List Char) : Option (List Nat) :=
  match splitAtGap cs with
  | none => (pieces? true cs).filter (·.length = 8)
  | some (front, back) => do
      let front ← pieces? false front
      let back ← pieces? true back
      guard (front.length + back.length ≤ 7)
      some (front ++ List.replicate (8 - front.length - back.length) 0 ++ back)

/-- A piece in hexadecimal without needless zeros. -/
def pieceChars (n : Nat) : List Char := Nat.toDigits 16 n

/-- How many zeros a list begins with. -/
def leadingZeros (pieces : List Nat) : Nat := (pieces.takeWhile (· = 0)).length

/-- The place and the length of the first of the longest runs of zeros. -/
def longestGap (index : Nat) : List Nat → Nat × Nat
  | [] => (index, 0)
  | n :: rest =>
      let here := leadingZeros (n :: rest)
      let later := longestGap (index + 1) rest
      if later.2 ≤ here then (index, here) else later

/-- Pieces with colons between them. -/
def joinPieces (pieces : List Nat) : List Char :=
  [':'].intercalate (pieces.map pieceChars)

/-- An address as text: the first of the longest runs of two or more zeros is left out. -/
def chars6 (pieces : List Nat) : List Char :=
  let (start, length) := longestGap 0 pieces
  if 2 ≤ length then
    joinPieces (pieces.take start) ++ ':' :: ':' :: joinPieces (pieces.drop (start + length))
  else joinPieces pieces

end InstanceConsole.Address

/-!
# Numerals

Decimal numerals as lists of characters: writing, and reading with only ASCII digits allowed.
-/

set_option autoImplicit false

namespace InstanceConsole.Numeral

/-- The decimal numeral of a number, without leading zeros. -/
def digits (n : Nat) : List Char := Nat.toDigits 10 n

/-- The decimal numeral of a number as a text. -/
def text (n : Nat) : String := String.ofList (digits n)

/-- The numeral of `n` with zeros in front up to `width` digits. -/
def padded (width n : Nat) : List Char :=
  List.replicate (width - (digits n).length) '0' ++ digits n

/-- The value of an ASCII digit. -/
def digit? (c : Char) : Option Nat :=
  if '0' ≤ c ∧ c ≤ '9' then some (c.toNat - 48) else none

/-- The value of a hexadecimal digit in either case. -/
def hexDigit? (c : Char) : Option Nat :=
  if '0' ≤ c ∧ c ≤ '9' then some (c.toNat - 48)
  else if 'a' ≤ c ∧ c ≤ 'f' then some (c.toNat - 87)
  else if 'A' ≤ c ∧ c ≤ 'F' then some (c.toNat - 55)
  else none

/-- The hexadecimal digit of a number below sixteen, in lower case. -/
def hexDigit (n : Nat) : Char :=
  if n < 10 then Char.ofNat (48 + n) else Char.ofNat (87 + n)

/-- The hexadecimal digit of a number below sixteen, in upper case. -/
def upperHexDigit (n : Nat) : Char :=
  if n < 10 then Char.ofNat (48 + n) else Char.ofNat (55 + n)

def isDigit (c : Char) : Bool := (digit? c).isSome

/-- The value of digits in base ten, after those with value `acc`; anything else is refused. -/
def valueFrom : Nat → List Char → Option Nat
  | acc, [] => some acc
  | acc, c :: cs => (digit? c).bind fun d => valueFrom (10 * acc + d) cs

/-- The value of one or more decimal digits. -/
def value? : List Char → Option Nat
  | [] => none
  | cs => valueFrom 0 cs

/-- The digits at the front, at most `limit` of them, and what follows. -/
def takeDigits : Nat → List Char → List Char × List Char
  | 0, cs => ([], cs)
  | _, [] => ([], [])
  | limit + 1, c :: cs =>
      if isDigit c then
        let (front, rest) := takeDigits limit cs
        (c :: front, rest)
      else ([], c :: cs)

/-- An unsigned number below `bound`: decimal digits after an optional plus sign. -/
def unsigned? (bound : Nat) (cs : List Char) : Option Nat :=
  let cs := match cs with
    | '+' :: rest => rest
    | _ => cs
  (value? cs).filter (· < bound)

end InstanceConsole.Numeral

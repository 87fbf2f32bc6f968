/-!
# UTF-8

`encode` writes characters as bytes. `decode` reads any bytes: each longest run of bytes that
begins a character and does not complete one stands for one `none`, and a byte that cannot begin
a character stands for one as well. `decodeLossy` puts U+FFFD in those places, `decodeStrict`
refuses the whole text.
-/

set_option autoImplicit false

namespace InstanceConsole.Utf8

/-- The bytes of one character. -/
def encodeChar (c : Char) : List UInt8 :=
  let n := c.toNat
  if n < 0x80 then [UInt8.ofNat n]
  else if n < 0x800 then
    [UInt8.ofNat (0xC0 + n / 0x40), UInt8.ofNat (0x80 + n % 0x40)]
  else if n < 0x10000 then
    [UInt8.ofNat (0xE0 + n / 0x1000), UInt8.ofNat (0x80 + n / 0x40 % 0x40),
     UInt8.ofNat (0x80 + n % 0x40)]
  else
    [UInt8.ofNat (0xF0 + n / 0x40000), UInt8.ofNat (0x80 + n / 0x1000 % 0x40),
     UInt8.ofNat (0x80 + n / 0x40 % 0x40), UInt8.ofNat (0x80 + n % 0x40)]

def encode (cs : List Char) : List UInt8 := cs.flatMap encodeChar

/-- The bytes of a text. -/
def ofString (s : String) : List UInt8 := encode s.toList

/-- Where a reader stands: between characters, or inside one with `count` bytes still to come,
the next of them between `low` and `high`, and `value` the bits read so far. -/
inductive Pending
  | none
  | inside (count low high value : Nat)
  deriving DecidableEq, Repr

/-- What the first byte of a character says about the rest: a complete character, the bytes that
must follow, or nothing when no character begins so. -/
def lead (b : Nat) : Option (Char ⊕ Pending) :=
  if b < 0x80 then some (.inl (Char.ofNat b))
  else if b < 0xC2 then none
  else if b < 0xE0 then some (.inr (.inside 1 0x80 0xBF (b - 0xC0)))
  else if b = 0xE0 then some (.inr (.inside 2 0xA0 0xBF 0))
  else if b = 0xED then some (.inr (.inside 2 0x80 0x9F 0xD))
  else if b < 0xF0 then some (.inr (.inside 2 0x80 0xBF (b - 0xE0)))
  else if b = 0xF0 then some (.inr (.inside 3 0x90 0xBF 0))
  else if b < 0xF4 then some (.inr (.inside 3 0x80 0xBF (b - 0xF0)))
  else if b = 0xF4 then some (.inr (.inside 3 0x80 0x8F 4))
  else none

/-- One byte read between characters. -/
def begin (b : Nat) : List (Option Char) × Pending :=
  match lead b with
  | some (.inl c) => ([some c], .none)
  | some (.inr p) => ([], p)
  | none => ([none], .none)

/-- One byte: what it completes, and where the reader stands after it. -/
def step (p : Pending) (b : Nat) : List (Option Char) × Pending :=
  match p with
  | .none => begin b
  | .inside count low high value =>
      if low ≤ b && b ≤ high then
        let value := value * 0x40 + (b - 0x80)
        if count ≤ 1 then ([some (Char.ofNat value)], .none)
        else ([], .inside (count - 1) 0x80 0xBF value)
      else
        let (out, next) := begin b
        (none :: out, next)

/-- Reads bytes from where the reader stands; an unfinished character at the end is one `none`. -/
def decodeFrom : Pending → List UInt8 → List (Option Char)
  | .none, [] => []
  | .inside .., [] => [none]
  | p, b :: bs => (step p b.toNat).1 ++ decodeFrom (step p b.toNat).2 bs

def decode (bs : List UInt8) : List (Option Char) := decodeFrom .none bs

/-- Reads bytes with U+FFFD for each ill-formed part. -/
def decodeLossy (bs : List UInt8) : String :=
  String.ofList ((decode bs).map (·.getD '\uFFFD'))

/-- Reads bytes that are all well-formed. -/
def decodeStrict (bs : List UInt8) : Option String :=
  ((decode bs).mapM id).map String.ofList

end InstanceConsole.Utf8

import InstanceConsole.Text.Utf8
import InstanceConsole.Text.Numeral

/-!
# Form encoding

The media type `application/x-www-form-urlencoded`: pairs with an ampersand between them, an
equals sign between name and value, a plus sign for a space, and a percent sign with two
hexadecimal digits for any other byte that is not a letter, a digit or one of `*-._`. A percent
sign without two digits after it stands for itself.
-/

set_option autoImplicit false

namespace InstanceConsole.FormEncoding

/-! ## Reading -/

/-- Puts a byte in the place of each percent sign with two hexadecimal digits. -/
def percentDecode : List UInt8 → List UInt8
  | a :: b :: c :: rest =>
      if a = 0x25 then
        match Numeral.hexDigit? (Char.ofNat b.toNat), Numeral.hexDigit? (Char.ofNat c.toNat) with
        | some high, some low => UInt8.ofNat (16 * high + low) :: percentDecode rest
        | _, _ => a :: percentDecode (b :: c :: rest)
      else a :: percentDecode (b :: c :: rest)
  | short => short

/-- A name or value without its encoding. -/
def decodeComponent (bytes : List UInt8) : String :=
  Utf8.decodeLossy (percentDecode (bytes.map fun b => if b = 0x2B then 0x20 else b))

/-- A pair is cut at its first equals sign; without one, all of it is the name. -/
def decodePair (bytes : List UInt8) : String × String :=
  (decodeComponent (bytes.takeWhile (· != 0x3D)),
   decodeComponent ((bytes.dropWhile (· != 0x3D)).drop 1))

/-- The pairs of an encoded text, in order. -/
def decode (bytes : List UInt8) : List (String × String) :=
  ((bytes.splitOn 0x26).filter (· ≠ [])).map decodePair

/-- The value of the last pair with a name. -/
def lastValue? (name : String) (pairs : List (String × String)) : Option String :=
  ((pairs.filter (·.1 = name)).getLast?).map (·.2)

/-! ## Writing -/

/-- Whether a byte stands for itself. -/
def isPlain (b : UInt8) : Bool :=
  let c := Char.ofNat b.toNat
  b < 0x80 && (c.isAlphanum || c = '*' || c = '-' || c = '.' || c = '_')

/-- A percent sign and the two digits of a byte, in upper case. -/
def percentEncodeByte (b : UInt8) : List Char :=
  ['%', Numeral.upperHexDigit (b.toNat / 16), Numeral.upperHexDigit (b.toNat % 16)]

def encodeByte (b : UInt8) : List Char :=
  if b = 0x20 then ['+']
  else if isPlain b then [Char.ofNat b.toNat]
  else percentEncodeByte b

def encodeComponent (s : String) : List Char := (Utf8.ofString s).flatMap encodeByte

/-- One pair. -/
def encodePair (name value : String) : List Char :=
  encodeComponent name ++ '=' :: encodeComponent value

end InstanceConsole.FormEncoding

import InstanceConsole.Json.Value
import InstanceConsole.Text.Numeral

/-!
# JSON text in

One character at a time: `Reader.feed` takes the reader from one state to the next, and refuses a
character that cannot stand there. The text is strict JSON: gaps are spaces, tabs and line breaks
only, a string holds no raw control character, a number has no leading zero, and nothing follows
the value.
-/

set_option autoImplicit false

namespace InstanceConsole.Json

/-! ## String literals -/

/-- What stands at one place of a string literal: a character, or an escaped surrogate. -/
inductive Piece
  | char (c : Char)
  | surrogate (code : Nat)
  deriving DecidableEq, Repr

/-- What an escape with four hexadecimal digits stands for. -/
def Piece.ofCode (code : Nat) : Piece :=
  if 0xD800 ≤ code ∧ code ≤ 0xDFFF then .surrogate code else .char (Char.ofNat code)

/-- The characters of a literal: each high surrogate joins the low surrogate right after it, and
any other surrogate spoils the literal. -/
def joinPieces : List Piece → Option (List Char)
  | [] => some []
  | .char c :: rest => (joinPieces rest).map (c :: ·)
  | .surrogate high :: .surrogate low :: rest =>
      if high < 0xDC00 ∧ 0xDC00 ≤ low then
        (joinPieces rest).map
          (Char.ofNat (0x10000 + (high - 0xD800) * 0x400 + (low - 0xDC00)) :: ·)
      else none
  | .surrogate _ :: _ => none

/-- The text of a literal, read from its last piece to its first. -/
def textOfPieces (before : List Piece) : JsonText :=
  (joinPieces before.reverse).map String.ofList

/-- The character that a backslash and a letter stand for. -/
def escaped? (c : Char) : Option Char :=
  if c = '"' then some '"'
  else if c = '\\' then some '\\'
  else if c = '/' then some '/'
  else if c = 'b' then some '\x08'
  else if c = 'f' then some '\x0c'
  else if c = 'n' then some '\n'
  else if c = 'r' then some '\r'
  else if c = 't' then some '\t'
  else none

/-! ## Numbers and names -/

/-- The sign and the digits of an exponent. -/
def exponent? : List Char → Option Int
  | '+' :: cs => (Numeral.value? cs).map Int.ofNat
  | '-' :: cs => (Numeral.value? cs).map fun n => -(n : Int)
  | cs => (Numeral.value? cs).map Int.ofNat

/-- What follows the whole digits of a number: nothing, a fraction, an exponent, or both. -/
def fraction? (negative : Bool) (whole : List Char) : List Char → Option JsonNumber
  | [] => (Numeral.value? whole).map fun n =>
      if negative then
        if n = 0 then .decimal true 0 0 else .integer (-(n : Int))
      else .integer n
  | '.' :: cs => do
      let places := cs.takeWhile Numeral.isDigit
      let significand ← Numeral.value? (whole ++ places)
      guard (places ≠ [])
      match cs.dropWhile Numeral.isDigit with
      | [] => some (.decimal negative significand (-(places.length : Int)))
      | e :: cs =>
          guard (e = 'e' ∨ e = 'E')
          let exponent ← exponent? cs
          some (.decimal negative significand (exponent - places.length))
  | e :: cs => do
      guard (e = 'e' ∨ e = 'E')
      let significand ← Numeral.value? whole
      let exponent ← exponent? cs
      some (.decimal negative significand exponent)

/-- A number without its sign: digits, no needless zero in front of them, and what follows. -/
def unsignedNumber? (negative : Bool) (cs : List Char) : Option JsonNumber :=
  let whole := cs.takeWhile Numeral.isDigit
  if whole = [] ∨ (whole.head? = some '0' ∧ whole ≠ ['0']) then none
  else fraction? negative whole (cs.dropWhile Numeral.isDigit)

def number? : List Char → Option JsonNumber
  | '-' :: cs => unsignedNumber? true cs
  | cs => unsignedNumber? false cs

/-- The value of a name or number that stands without quotes. -/
def bareWord? (cs : List Char) : Option Json :=
  if cs = ['n', 'u', 'l', 'l'] then some .null
  else if cs = ['t', 'r', 'u', 'e'] then some (.bool true)
  else if cs = ['f', 'a', 'l', 's', 'e'] then some (.bool false)
  else (number? cs).map .num

/-! ## The reader -/

/-- An array or object that has begun and not ended, with what it holds so far, last first. -/
inductive Frame
  | array (before : List Json)
  | object (before : List (JsonText × Json))
  | member (before : List (JsonText × Json)) (key : JsonText)
  deriving Repr

/-- What the reader expects next. -/
inductive Mode
  /-- A value; right after an opening bracket the closing one may stand there too. -/
  | value (mayClose : Bool)
  /-- The key of a member; right after an opening brace the closing one may stand there too. -/
  | key (mayClose : Bool)
  | colon
  /-- A comma or the end of what holds the last value. -/
  | separator
  /-- Nothing but gaps. -/
  | finished (value : Json)
  | text (isKey : Bool) (before : List Piece)
  | escape (isKey : Bool) (before : List Piece)
  | hex (isKey : Bool) (before : List Piece) (left code : Nat)
  | bare (before : List Char)
  deriving Repr

structure Reader where
  mode : Mode
  stack : List Frame
  deriving Repr

def isGap (c : Char) : Bool := c = ' ' || c = '\t' || c = '\n' || c = '\r'

/-- The characters of names and numbers. -/
def isBareChar (c : Char) : Bool := c.isAlphanum || c = '+' || c = '-' || c = '.'

namespace Reader

def start : Reader := ⟨.value false, []⟩

/-- A value has been read: it joins what holds it. -/
def complete (value : Json) : List Frame → Option Reader
  | [] => some ⟨.finished value, []⟩
  | .array before :: stack => some ⟨.separator, .array (value :: before) :: stack⟩
  | .member before key :: stack => some ⟨.separator, .object ((key, value) :: before) :: stack⟩
  | .object _ :: _ => none

/-- One character after a value. -/
def afterValue (r : Reader) (c : Char) : Option Reader :=
  if isGap c then some r
  else match r.mode, c, r.stack with
    | .separator, ',', .array before :: stack => some ⟨.value false, .array before :: stack⟩
    | .separator, ',', .object before :: stack => some ⟨.key false, .object before :: stack⟩
    | .separator, ']', .array before :: stack => complete (.arr before.reverse) stack
    | .separator, '}', .object before :: stack => complete (.obj before.reverse) stack
    | _, _, _ => none

/-- One character where a value may begin. -/
def beginValue (mayClose : Bool) (stack : List Frame) (c : Char) : Option Reader :=
  if isGap c then some ⟨.value mayClose, stack⟩
  else if c = '"' then some ⟨.text false [], stack⟩
  else if c = '[' then some ⟨.value true, .array [] :: stack⟩
  else if c = '{' then some ⟨.key true, .object [] :: stack⟩
  else if c = ']' then
    match mayClose, stack with
    | true, .array [] :: stack => complete (.arr []) stack
    | _, _ => none
  else if isBareChar c then some ⟨.bare [c], stack⟩
  else none

/-- One character where a key may begin. -/
def beginKey (mayClose : Bool) (stack : List Frame) (c : Char) : Option Reader :=
  if isGap c then some ⟨.key mayClose, stack⟩
  else if c = '"' then some ⟨.text true [], stack⟩
  else if c = '}' then
    match mayClose, stack with
    | true, .object [] :: stack => complete (.obj []) stack
    | _, _ => none
  else none

/-- A string literal has ended: it is a value, or the key of the next member. -/
def endText (isKey : Bool) (text : JsonText) (stack : List Frame) : Option Reader :=
  if isKey then
    match stack with
    | .object before :: stack => some ⟨.colon, .member before text :: stack⟩
    | _ => none
  else complete (.str text) stack

/-- The state after one more character, if it may stand there. -/
def feed (r : Reader) (c : Char) : Option Reader :=
  match r.mode with
  | .value mayClose => beginValue mayClose r.stack c
  | .key mayClose => beginKey mayClose r.stack c
  | .colon =>
      if isGap c then some r
      else if c = ':' then some ⟨.value false, r.stack⟩
      else none
  | .separator => r.afterValue c
  | .finished _ => r.afterValue c
  | .text isKey before =>
      if c = '"' then endText isKey (textOfPieces before) r.stack
      else if c = '\\' then some ⟨.escape isKey before, r.stack⟩
      else if c.toNat < 0x20 then none
      else some ⟨.text isKey (.char c :: before), r.stack⟩
  | .escape isKey before =>
      if c = 'u' then some ⟨.hex isKey before 4 0, r.stack⟩
      else (escaped? c).map fun c => ⟨.text isKey (.char c :: before), r.stack⟩
  | .hex isKey before left code =>
      (Numeral.hexDigit? c).map fun d =>
        let code := 16 * code + d
        if left ≤ 1 then ⟨.text isKey (.ofCode code :: before), r.stack⟩
        else ⟨.hex isKey before (left - 1) code, r.stack⟩
  | .bare before =>
      if isBareChar c then some ⟨.bare (c :: before), r.stack⟩
      else (bareWord? before.reverse).bind fun value =>
        (complete value r.stack).bind (·.afterValue c)

/-- The value, once the text has ended. -/
def finish (r : Reader) : Option Json :=
  match r.mode, r.stack with
  | .finished value, _ => some value
  | .bare before, [] => bareWord? before.reverse
  | _, _ => none

end Reader

def readChars (cs : List Char) : Option Json :=
  (cs.foldlM Reader.feed Reader.start).bind Reader.finish

/-- The value that a text stands for, if the text is JSON. -/
def read (s : String) : Option Json := readChars s.toList

end InstanceConsole.Json

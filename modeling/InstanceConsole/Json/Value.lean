/-!
# JSON values

A document as it is written: members stay in order and may repeat, and a number keeps apart the
integers from all that is written with a fraction, an exponent, or as a negative zero.
-/

set_option autoImplicit false

namespace InstanceConsole

/-- A number: an integer numeral, or a significand times a power of ten. -/
inductive JsonNumber
  | integer (value : Int)
  | decimal (negative : Bool) (significand : Nat) (exponent : Int)
  deriving DecidableEq, Repr

/-- The text of a string literal. It is `none` when the literal escapes a surrogate without its
other half, which stands for no text. -/
abbrev JsonText := Option String

inductive Json
  | null
  | bool (value : Bool)
  | num (value : JsonNumber)
  | str (text : JsonText)
  | arr (items : List Json)
  | obj (members : List (JsonText × Json))
  deriving Repr

namespace Json

/-! ## Building documents -/

def text (s : String) : Json := .str (some s)

def nat (n : Nat) : Json := .num (.integer n)

/-- An object from named values. -/
def record (members : List (String × Json)) : Json :=
  .obj (members.map fun m => (some m.1, m.2))

/-- A member that is left out when there is no value. -/
def optionalMember {α : Type} (name : String) (toJson : α → Json) : Option α → List (String × Json)
  | none => []
  | some a => [(name, toJson a)]

/-- A member that is left out when the list is empty. -/
def listMember {α : Type} (name : String) (toJson : α → Json) : List α → List (String × Json)
  | [] => []
  | items => [(name, .arr (items.map toJson))]

/-- A value, or `null` when there is none. -/
def orNull {α : Type} (toJson : α → Json) : Option α → Json
  | none => .null
  | some a => toJson a

/-! ## Looking into documents -/

/-- The text of a string. -/
def text? : Json → Option String
  | .str s => s
  | _ => none

def bool? : Json → Option Bool
  | .bool b => some b
  | _ => none

/-- An integer numeral that is not negative. -/
def nat? : Json → Option Nat
  | .num (.integer n) => if 0 ≤ n then some n.toNat else none
  | _ => none

/-- A number that fits into 64 bits. -/
def count? (j : Json) : Option UInt64 :=
  j.nat?.bind fun n => if h : n < UInt64.size then some (UInt64.ofNatLT n h) else none

/-- A number that fits into 32 bits. -/
def word? (j : Json) : Option UInt32 :=
  j.nat?.bind fun n => if h : n < UInt32.size then some (UInt32.ofNatLT n h) else none

/-- A list whose every item decodes. -/
def list? {α : Type} (decode : Json → Option α) : Json → Option (List α)
  | .arr items => items.mapM decode
  | _ => none

/-! ## Values that can be kept whole -/

/-- The least number that does not round to a finite binary64 value. -/
def overflowBound : Nat := Nat.pow 2 1024 - Nat.pow 2 970

end Json

/-- Whether a number rounds to a finite binary64 value. -/
def JsonNumber.isFinite : JsonNumber → Bool
  | .integer n => n.natAbs < Json.overflowBound
  | .decimal _ significand (.ofNat exponent) =>
      significand = 0 || (exponent ≤ 309 && significand * Nat.pow 10 exponent < Json.overflowBound)
  | .decimal _ significand (.negSucc exponent) =>
      (Nat.toDigits 10 significand).length ≤ exponent + 1 ||
        significand < Json.overflowBound * Nat.pow 10 (exponent + 1)

namespace Json

/-- The greatest number of arrays and objects that may lie within each other. -/
def depthLimit : Nat := 127

mutual

/-- Whether a value inside `level` arrays and objects can be kept whole: nothing in it lies too
deep, every string has a text, and every number is finite. -/
def isKeepable (level : Nat) : Json → Bool
  | .null => true
  | .bool _ => true
  | .num n => n.isFinite
  | .str s => s.isSome
  | .arr items => level < depthLimit && areItemsKeepable (level + 1) items
  | .obj members => level < depthLimit && areMembersKeepable (level + 1) members

def areItemsKeepable (level : Nat) : List Json → Bool
  | [] => true
  | item :: items => isKeepable level item && areItemsKeepable level items

def areMembersKeepable (level : Nat) : List (JsonText × Json) → Bool
  | [] => true
  | member :: members => isMemberKeepable level member && areMembersKeepable level members

def isMemberKeepable (level : Nat) : JsonText × Json → Bool
  | (key, value) => key.isSome && isKeepable level value

end

end Json

end InstanceConsole

import InstanceConsole.Text.Blank
import InstanceConsole.Text.Numeral

/-!
# Calendar dates

Days of the proleptic Gregorian calendar, from the first day of the year -262143 to the last day
of the year 262142. A date is written `YYYY-MM-DD`; years outside 0 to 9999 have a sign and at
least four digits. Two forms are read: the tight form of the query string, and the loose form of
documents, which allows blanks before the hyphens and at the end.
-/

set_option autoImplicit false

namespace InstanceConsole

namespace Calendar

def isLeapYear (year : Int) : Bool :=
  year % 4 = 0 && (year % 100 ≠ 0 || year % 400 = 0)

def daysInMonth (year : Int) (month : Nat) : Nat :=
  if month = 2 then if isLeapYear year then 29 else 28
  else if month = 4 ∨ month = 6 ∨ month = 9 ∨ month = 11 then 30
  else 31

def firstYear : Int := -262143

def lastYear : Int := 262142

/-- Whether a day exists in the calendar. -/
def exists? (year : Int) (month day : Nat) : Bool :=
  firstYear ≤ year && year ≤ lastYear && 1 ≤ month && month ≤ 12 && 1 ≤ day &&
    day ≤ daysInMonth year month

end Calendar

structure Date where
  year : Int
  month : Nat
  day : Nat
  valid : Calendar.exists? year month day = true
  deriving DecidableEq, Repr

namespace Date

def ofParts? (year : Int) (month day : Nat) : Option Date :=
  if h : Calendar.exists? year month day = true then some ⟨year, month, day, h⟩ else none

/-- The day after, unless this is the last day of the calendar. -/
def next? (d : Date) : Option Date :=
  if d.day < Calendar.daysInMonth d.year d.month then ofParts? d.year d.month (d.day + 1)
  else if d.month < 12 then ofParts? d.year (d.month + 1) 1
  else ofParts? (d.year + 1) 1 1

/-- The day before, unless this is the first day of the calendar. -/
def previous? (d : Date) : Option Date :=
  if 1 < d.day then ofParts? d.year d.month (d.day - 1)
  else if 1 < d.month then
    ofParts? d.year (d.month - 1) (Calendar.daysInMonth d.year (d.month - 1))
  else ofParts? (d.year - 1) 12 31

/-! ## Writing -/

def yearChars (year : Int) : List Char :=
  match year with
  | .ofNat n => if n ≤ 9999 then Numeral.padded 4 n else '+' :: Numeral.digits n
  | .negSucc n => '-' :: Numeral.padded 4 (n + 1)

def chars (d : Date) : List Char :=
  yearChars d.year ++ '-' :: Numeral.padded 2 d.month ++ '-' :: Numeral.padded 2 d.day

/-- A date as `YYYY-MM-DD`. -/
def text (d : Date) : String := String.ofList d.chars

end Date

namespace Calendar

/-! ## Reading -/

/-- A number of at most `limit` digits, and what follows it. -/
def scanDigits (limit : Nat) (cs : List Char) : Option (Nat × List Char) :=
  let (front, rest) := Numeral.takeDigits limit cs
  (Numeral.value? front).map (·, rest)

/-- A number of at most `limit` digits after blanks. -/
def scanNumber (limit : Nat) (cs : List Char) : Option (Nat × List Char) :=
  scanDigits limit (Text.trimFront cs)

/-- A year after blanks: at most four digits, or a sign and any number of digits. -/
def scanYear (cs : List Char) : Option (Int × List Char) :=
  match Text.trimFront cs with
  | '-' :: rest => (scanDigits rest.length rest).map fun (n, rest) => (-(n : Int), rest)
  | '+' :: rest => (scanDigits rest.length rest).map fun (n, rest) => ((n : Int), rest)
  | rest => (scanDigits 4 rest).map fun (n, rest) => ((n : Int), rest)

/-- What follows the mark that must stand here. -/
def scanMark (mark : Char) : List Char → Option (List Char)
  | [] => none
  | c :: cs => if c = mark then some cs else none

/-- A mark that may have blanks before it in the loose form. -/
def scanSpacedMark (loose : Bool) (mark : Char) (cs : List Char) : Option (List Char) :=
  scanMark mark (if loose then Text.trimFront cs else cs)

/-- A date and what follows it. -/
def scanDate (loose : Bool) (cs : List Char) : Option (Date × List Char) := do
  let (year, cs) ← scanYear cs
  let cs ← scanSpacedMark loose '-' cs
  let (month, cs) ← scanNumber 2 cs
  let cs ← scanSpacedMark loose '-' cs
  let (day, cs) ← scanNumber 2 cs
  let date ← Date.ofParts? year month day
  some (date, cs)

end Calendar

namespace Date

/-- A date in the tight form: blanks only before the numbers, and nothing after the day. -/
def ofTightText? (s : String) : Option Date := do
  let (date, rest) ← Calendar.scanDate false s.toList
  guard (rest = [])
  some date

/-- A date in the loose form: blanks before numbers and hyphens, and at the end. -/
def ofText? (s : String) : Option Date := do
  let (date, rest) ← Calendar.scanDate true s.toList
  guard (Text.trimFront rest = [])
  some date

end Date

end InstanceConsole

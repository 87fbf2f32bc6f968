import InstanceConsole.Calendar.Date

/-!
# Timestamps

Moments in UTC with nanoseconds. A leap second follows some second as part of it: its nanoseconds
are a billion and more. It is shown as the second with the next number, so after second 59 it is
second 60, and read as a leap second again. A timestamp may also hold a leap second after any other
second, which looks like the plain second that comes next.

A timestamp is written `YYYY-MM-DDTHH:MM:SSZ` with no fraction or one of three, six or nine digits,
the fewest that keep it whole. Reading accepts any offset of less than a day and converts to UTC.
-/

set_option autoImplicit false

namespace InstanceConsole

structure Timestamp where
  date : Date
  hour : Fin 24
  minute : Fin 60
  second : Fin 60
  /-- From a billion on, this is time in the leap second that follows. -/
  nano : Fin 2000000000
  deriving DecidableEq, Repr

namespace Timestamp

/-- How many nanoseconds a second has, apart from a leap second after it. -/
def nanosPerSecond : Nat := 1000000000

/-- The first moment of a day. -/
def startOfDay (date : Date) : Timestamp := ⟨date, 0, 0, 0, 0⟩

/-! ## Writing -/

/-- The fraction of a second, with the fewest of zero, three, six or nine digits. -/
def fractionChars (nano : Nat) : List Char :=
  if nano = 0 then []
  else if nano % 1000000 = 0 then '.' :: Numeral.padded 3 (nano / 1000000)
  else if nano % 1000 = 0 then '.' :: Numeral.padded 6 (nano / 1000)
  else '.' :: Numeral.padded 9 nano

/-- The second that is shown, at most 60. -/
def shownSecond (t : Timestamp) : Nat := t.second + t.nano / nanosPerSecond

/-- The nanoseconds of the second that is shown. -/
def shownNano (t : Timestamp) : Nat := t.nano % nanosPerSecond

def chars (t : Timestamp) : List Char :=
  t.date.chars ++ 'T' :: Numeral.padded 2 t.hour ++ ':' :: Numeral.padded 2 t.minute ++
    ':' :: Numeral.padded 2 t.shownSecond ++ fractionChars t.shownNano ++ ['Z']

def text (t : Timestamp) : String := String.ofList t.chars

/-! ## Offsets -/

/-- The moment that a local time shows when local clocks are `offset` minutes ahead of UTC. -/
def ofLocal? (t : Timestamp) (offset : Int) : Option Timestamp :=
  let minutes : Int := t.hour * 60 + t.minute - offset
  let onDay (date : Date) (minutes : Int) : Timestamp :=
    { t with
      date
      hour := Fin.ofNat 24 (minutes.toNat / 60)
      minute := Fin.ofNat 60 (minutes.toNat % 60) }
  if minutes < 0 then t.date.previous?.map (onDay · (minutes + 1440))
  else if minutes < 1440 then some (onDay t.date minutes)
  else t.date.next?.map (onDay · (minutes - 1440))

end Timestamp

namespace Calendar

/-! ## Reading -/

/-- The mark between a date and a time of day. -/
def scanClockMark : List Char → Option (List Char)
  | c :: cs => if c = 'T' ∨ c = 't' ∨ c = ' ' then some cs else none
  | [] => none

/-- An optional fraction of a second in nanoseconds; digits after the ninth do not count. -/
def scanFraction : List Char → Option (Nat × List Char)
  | '.' :: cs => do
      let (front, rest) := Numeral.takeDigits 9 cs
      let value ← Numeral.value? front
      some (value * Nat.pow 10 (9 - front.length), rest.dropWhile Numeral.isDigit)
  | cs => some (0, cs)

/-- A number below `bound`, of at most two digits. -/
def scanBelow (bound : Nat) (cs : List Char) : Option (Fin bound × List Char) := do
  let (n, cs) ← scanNumber 2 cs
  if h : n < bound then some (⟨n, h⟩, cs) else none

/-- Two digits right here. -/
def scanTwoDigits : List Char → Option (Nat × List Char)
  | a :: b :: cs => do
      let a ← Numeral.digit? a
      let b ← Numeral.digit? b
      some (10 * a + b, cs)
  | _ => none

/-- The hours and minutes of an offset, with colons and blanks between them, in minutes. -/
def scanClockOffset (cs : List Char) : Option (Int × List Char) := do
  let (hours, cs) ← scanTwoDigits cs
  let (minutes, cs) ← scanTwoDigits (cs.dropWhile fun c => c = ':' || Text.isBlankChar c)
  guard (minutes < 60)
  some ((60 * hours + minutes : Nat), cs)

/-- The zone at the end of a timestamp as the minutes it is ahead of UTC. -/
def scanOffset : List Char → Option (Int × List Char)
  | c :: cs =>
      if c = 'Z' ∨ c = 'z' then some (0, cs)
      else if c = '+' then scanClockOffset cs
      else if c = '-' ∨ c = '\u2212' then
        (scanClockOffset cs).map fun (minutes, cs) => (-minutes, cs)
      else if ((c :: cs).take 3).map Char.toUpper = ['U', 'T', 'C'] then some (0, cs.drop 2)
      else none
  | [] => none

end Calendar

namespace Timestamp

/-- The timestamp of a second that is shown with its nanoseconds. Second 60 is the leap second after
second 59. -/
def ofShown (date : Date) (hour : Fin 24) (minute : Fin 60) (second nano : Nat) : Timestamp :=
  if second < 60 then
    { date, hour, minute, second := Fin.ofNat 60 second, nano := Fin.ofNat _ nano }
  else { date, hour, minute, second := 59, nano := Fin.ofNat _ (nanosPerSecond + nano) }

/-- A timestamp with any offset of less than a day, as a moment in UTC. -/
def ofText? (s : String) : Option Timestamp := do
  let (date, cs) ← Calendar.scanDate true s.toList
  let cs ← Calendar.scanClockMark cs
  let (hour, cs) ← Calendar.scanBelow 24 cs
  let cs ← Calendar.scanSpacedMark true ':' cs
  let (minute, cs) ← Calendar.scanBelow 60 cs
  let cs ← Calendar.scanSpacedMark true ':' cs
  let (second, cs) ← Calendar.scanBelow 61 cs
  let (nano, cs) ← Calendar.scanFraction cs
  let (offset, cs) ← Calendar.scanOffset (Text.trimFront cs)
  guard (Text.trimFront cs = [])
  guard (offset.natAbs < 1440)
  ofLocal? (ofShown date hour minute second nano) offset

end Timestamp

end InstanceConsole

import SchemaEvolution.Calendar.Date

/-!
# `SchemaEvolution.Calendar.Instant`: points in time, in UTC

An instant is a day, the second of that day and a part of a second.
A leap second is the part of a second that runs past the 59th second
of a minute; it is written as second 60.

Texts are read in a relaxed form of RFC 3339: white space may stand
before each number, before the dashes and colons and before the
offset; the day and the time are parted by `T` or one space; the
offset is `Z`, `UTC` or hours and minutes with a sign. They are
written in one form, with the fewest of 0, 3, 6 or 9 decimals that are
exact.

* `Instant.shift?_zero`: an offset of zero changes nothing.
-/

set_option autoImplicit false

namespace SchemaEvolution.Calendar

open SchemaEvolution.Text

/-- A second has a thousand million nanoseconds. -/
def nanosPerSecond : Nat := 1000000000

/-- A day has 86400 seconds. -/
def secondsPerDay : Nat := 86400

/-- A point in time. -/
structure Instant where
  date : Date
  second : Nat
  nano : Nat
  second_lt : second < secondsPerDay
  nano_lt : nano < 2 * nanosPerSecond
  leap : nanosPerSecond ≤ nano → second % 60 = 59
  inRange : date.InRange
deriving DecidableEq

namespace Instant

/-- The instant of these parts, if they make one. -/
def ofParts? (date : Date) (second nano : Nat) : Option Instant :=
  if h : second < secondsPerDay ∧ nano < 2 * nanosPerSecond ∧
      (nanosPerSecond ≤ nano → second % 60 = 59) ∧ date.InRange then
    some ⟨date, second, nano, h.1, h.2.1, h.2.2.1, h.2.2.2⟩
  else none

/-- The decimals of a second: 0, 3, 6 or 9, as few as are exact. -/
def fractionText (nano : Nat) : String :=
  if nano = 0 then ""
  else if nano % 1000000 = 0 then "." ++ padded 3 (nano / 1000000)
  else if nano % 1000 = 0 then "." ++ padded 6 (nano / 1000)
  else "." ++ padded 9 nano

/-- The instant in RFC 3339, in UTC. -/
def text (i : Instant) : String :=
  let leapSecond := i.nano / nanosPerSecond
  i.date.text ++ "T" ++ padded 2 (i.second / 3600) ++ ":" ++
    padded 2 (i.second / 60 % 60) ++ ":" ++
    padded 2 (i.second % 60 + leapSecond) ++
    fractionText (i.nano % nanosPerSecond) ++ "Z"

/-- The nanoseconds at the front of the text: nothing, or a point and
digits, of which those after the ninth are dropped. -/
def fraction? : List Char → Option (Nat × List Char)
  | '.' :: cs => do
      let ds := cs.takeWhile Char.isDigit
      if ds.isEmpty then none
      else
        some (digitsValue ((ds ++ List.replicate 9 '0').take 9),
          cs.drop ds.length)
  | cs => some (0, cs)

/-- Hours, minutes and seconds at the front of the text, as the second
of the day and the nanoseconds in it. -/
def time? (cs : List Char) : Option ((Nat × Nat) × List Char) := do
  let (hour, cs) ← number? 2 (skipBlanks cs)
  let cs ← expect? ':' (skipBlanks cs)
  let (minute, cs) ← number? 2 (skipBlanks cs)
  let cs ← expect? ':' (skipBlanks cs)
  let (second, cs) ← number? 2 (skipBlanks cs)
  let (nano, cs) ← fraction? cs
  if hour ≤ 23 ∧ minute ≤ 59 ∧ second ≤ 60 then
    let minutes := hour * 60 + minute
    if second = 60 then
      some ((minutes * 60 + 59, nanosPerSecond + nano), cs)
    else some ((minutes * 60 + second, nano), cs)
  else none

/-- Two digits at the front of the text. -/
def twoDigits? : List Char → Option (Nat × List Char)
  | a :: b :: rest =>
      if a.isDigit && b.isDigit then some (digitsValue [a, b], rest)
      else none
  | _ => none

/-- Hours and minutes, in seconds. Colons and white space may stand
between them. -/
def span? (cs : List Char) : Option (Nat × List Char) := do
  let (hours, cs) ← twoDigits? cs
  let between := fun c => c == ':' || isWhiteSpace c
  let (minutes, cs) ← twoDigits? (cs.dropWhile between)
  if minutes ≤ 59 then some (hours * 3600 + minutes * 60, cs) else none

/-- The offset from UTC at the front of the text, in seconds. -/
def offset? (cs : List Char) : Option (Int × List Char) :=
  if (cs.take 3).map Char.toLower = ['u', 't', 'c'] then
    some (0, cs.drop 3)
  else
    match cs with
    | 'Z' :: rest => some (0, rest)
    | 'z' :: rest => some (0, rest)
    | '+' :: rest => (span? rest).map fun (n, rest) => (n, rest)
    | '-' :: rest => (span? rest).map fun (n, rest) => (-n, rest)
    | '\u2212' :: rest => (span? rest).map fun (n, rest) => (-n, rest)
    | _ => none

/-- The instant at which a clock with this offset from UTC shows this
time. The offset is less than a day. -/
def shift? (date : Date) (second nano : Nat) (offset : Int) :
    Option Instant :=
  let utc := (second : Int) - offset
  if utc < 0 then ofParts? date.prev (utc + secondsPerDay).toNat nano
  else if utc < secondsPerDay then ofParts? date utc.toNat nano
  else ofParts? date.next (utc - secondsPerDay).toNat nano

/-- The text after the sign that parts the day and the time. -/
def afterSeparator? : List Char → Option (List Char)
  | c :: rest => if c = 'T' ∨ c = 't' ∨ c = ' ' then some rest else none
  | [] => none

/-- The instant that the whole text spells, if it spells one. -/
def parse? (s : String) : Option Instant := do
  let (date, cs) ← Date.read? skipBlanks s.toList
  let cs ← afterSeparator? cs
  let ((second, nano), cs) ← time? cs
  let (offset, cs) ← offset? (skipBlanks cs)
  if (skipBlanks cs).isEmpty ∧ offset.natAbs < secondsPerDay ∧
      date.InRange then
    shift? date second nano offset
  else none

/-- A time of the day that is already in UTC stays as it is. -/
theorem shift?_zero {date : Date} {second nano : Nat}
    (h : second < secondsPerDay) :
    shift? date second nano 0 = ofParts? date second nano := by
  have h0 : ¬ (second : Int) < 0 := by omega
  simp [shift?, h0, h]

end Instant

end SchemaEvolution.Calendar

import SchemaEvolution.Text.Basic

/-!
# `SchemaEvolution.Calendar.Date`: days of the Gregorian calendar

A `Date` carries the proof that its month and day exist. The calendar
runs without end in both directions; `Date.InRange` is the stretch of
years that texts may name.

* `Date.prev_next`: the day before the next day is the day itself.
-/

set_option autoImplicit false

namespace SchemaEvolution.Calendar

open SchemaEvolution.Text

/-- Every fourth year is a leap year, except three of four centuries. -/
def isLeapYear (year : Int) : Bool :=
  year % 4 == 0 && (year % 100 != 0 || year % 400 == 0)

/-- The length of a month. -/
def daysInMonth (year : Int) (month : Nat) : Nat :=
  if month == 2 then (if isLeapYear year then 29 else 28)
  else if month == 4 || month == 6 || month == 9 || month == 11 then 30
  else 31

/-- A month has at least 28 days. -/
theorem daysInMonth_pos (year : Int) (month : Nat) :
    28 ≤ daysInMonth year month := by
  unfold daysInMonth
  split
  · split <;> omega
  · split <;> omega

/-- A day that exists. -/
@[ext]
structure Date where
  year : Int
  month : Nat
  day : Nat
  month_valid : 1 ≤ month ∧ month ≤ 12
  day_valid : 1 ≤ day ∧ day ≤ daysInMonth year month
deriving DecidableEq

namespace Date

instance : Hashable Date :=
  ⟨fun d => hash (d.year, d.month, d.day)⟩

/-- The day with these three numbers, if there is one. -/
def ofParts? (year : Int) (month day : Nat) : Option Date :=
  if h : (1 ≤ month ∧ month ≤ 12) ∧
      (1 ≤ day ∧ day ≤ daysInMonth year month) then
    some ⟨year, month, day, h.1, h.2⟩
  else none

/-- The first day of a month. -/
def firstOf (year : Int) (month : Nat)
    (h : 1 ≤ month ∧ month ≤ 12) : Date :=
  ⟨year, month, 1, h, Nat.le_refl 1, by
    have := daysInMonth_pos year month; omega⟩

/-- The last day of a month. -/
def lastOf (year : Int) (month : Nat)
    (h : 1 ≤ month ∧ month ≤ 12) : Date :=
  ⟨year, month, daysInMonth year month, h, by
    have := daysInMonth_pos year month; omega, Nat.le_refl _⟩

/-- The day after. -/
def next (d : Date) : Date :=
  if h : d.day < daysInMonth d.year d.month then
    ⟨d.year, d.month, d.day + 1, d.month_valid, by omega, by omega⟩
  else if hm : d.month < 12 then
    firstOf d.year (d.month + 1) ⟨by omega, by omega⟩
  else firstOf (d.year + 1) 1 (by decide)

/-- The day before. -/
def prev (d : Date) : Date :=
  if h : 1 < d.day then
    ⟨d.year, d.month, d.day - 1, d.month_valid, by omega, by
      have := d.day_valid; omega⟩
  else if hm : 1 < d.month then
    lastOf d.year (d.month - 1) ⟨by omega, by
      have := d.month_valid; omega⟩
  else lastOf (d.year - 1) 12 (by decide)

/-- The day before the next day is the day itself. -/
theorem prev_next (d : Date) : d.next.prev = d := by
  obtain ⟨year, month, day, hm, hd⟩ := d
  by_cases h : day < daysInMonth year month
  · have h1 : 1 < day + 1 := by omega
    simp [next, prev, h, h1]
  · have hday : daysInMonth year month = day := by omega
    by_cases h12 : month < 12
    · have h1 : 1 < month + 1 := by omega
      simp [next, prev, h12, firstOf, lastOf, h1, hday]
    · have : month = 12 := by omega
      subst this
      simp [next, prev, firstOf, lastOf, hday]

/-- The years that a text may name: 262143 before the year 0 and as
many from it on. -/
def InRange (d : Date) : Prop :=
  -262143 ≤ d.year ∧ d.year ≤ 262142

instance (d : Date) : Decidable d.InRange :=
  inferInstanceAs (Decidable (_ ∧ _))

/-- A year has four digits; one outside 0 to 9999 shows its sign. -/
def yearText (year : Int) : String :=
  if 0 ≤ year ∧ year ≤ 9999 then padded 4 year.toNat
  else (if year < 0 then "-" else "+") ++ padded 4 year.natAbs

/-- The date as `year-month-day`. -/
def text (d : Date) : String :=
  yearText d.year ++ "-" ++ padded 2 d.month ++ "-" ++ padded 2 d.day

/-- A year at the front of the text: four digits at most, or a sign
and any number of digits. -/
def year? : List Char → Option (Int × List Char)
  | '-' :: cs => (number? cs.length cs).map fun (n, rest) => (-n, rest)
  | '+' :: cs => (number? cs.length cs).map fun (n, rest) => (n, rest)
  | cs => (number? 4 cs).map fun (n, rest) => (n, rest)

/-- The date at the front of the text. White space may stand before
each of the three numbers; `beforeDash` removes what else may stand
before a dash. -/
def read? (beforeDash : List Char → List Char) (cs : List Char) :
    Option (Date × List Char) := do
  let (year, cs) ← year? (skipBlanks cs)
  let cs ← expect? '-' (beforeDash cs)
  let (month, cs) ← number? 2 (skipBlanks cs)
  let cs ← expect? '-' (beforeDash cs)
  let (day, cs) ← number? 2 (skipBlanks cs)
  let date ← ofParts? year month day
  return (date, cs)

/-- The date that the whole text spells, if it spells one in range. -/
def parse? (s : String) : Option Date :=
  match read? id s.toList with
  | some (date, []) => if date.InRange then some date else none
  | _ => none

end Date

end SchemaEvolution.Calendar

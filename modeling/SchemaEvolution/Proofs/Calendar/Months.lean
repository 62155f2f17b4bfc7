import Mathlib.Data.Prod.Lex
import Mathlib.Order.Bounds.Basic
import SchemaEvolution.Calendar.Date

/-!
# `SchemaEvolution.Proofs.Calendar.Months`: the months between two dates

Dates are ordered by year, month and day, which is the order in which
`Date.next` runs through them. A date goes on by months to the same day of
another month, or to the last day of that month if it is too short.

Months have no fixed length, so the months between two dates cannot be had
by a division. They can be counted without the days, and corrected by at
most one: a month counts once its day is reached, and the last day of a
month reaches every day that the month does not have. `monthsBetween` does
so with one case for each of the two directions.

* `next_le_iff`: the day after is the first of all later days.
* `addMonths_le_iff`: when a date that went on by months is not after
  another.
* `isGreatest_monthsBetween`: from an earlier date, the months between are
  the most that can be gone on by.
* `monthsBetween_swap`: the other way round they are negative.
-/

set_option autoImplicit false

namespace SchemaEvolution.Calendar.Date

variable {a b d : Date} {k : Int}

/-! ### The order of dates -/

/-- The numbers of a date, by which it is compared with others. -/
def key (d : Date) : Int ×ₗ Nat ×ₗ Nat := toLex (d.year, toLex (d.month, d.day))

/-- A date is told by its numbers, since the proofs that it carries are about
them alone. -/
theorem key_injective : Function.Injective key := by
  intro a b h
  obtain ⟨hyear, hrest⟩ := Prod.mk.inj (toLex_inj.1 h)
  obtain ⟨hmonth, hday⟩ := Prod.mk.inj (toLex_inj.1 hrest)
  exact Date.ext hyear hmonth hday

instance : LinearOrder Date := LinearOrder.lift' key key_injective

/-- Dates are compared by their years, then by their months, then by their
days. -/
theorem lt_iff : a < b ↔ a.year < b.year ∨
    a.year = b.year ∧
      (a.month < b.month ∨ a.month = b.month ∧ a.day < b.day) := by
  show key a < key b ↔ _
  simp only [key, Prod.Lex.toLex_lt_toLex]

/-- The months up to that of a date, all years counted. -/
def monthIndex (d : Date) : Int := 12 * d.year + ((d.month : Int) - 1)

/-- A month is a month of one year. -/
theorem monthIndex_inj :
    a.monthIndex = b.monthIndex ↔ a.year = b.year ∧ a.month = b.month := by
  have ha := a.month_valid
  have hb := b.month_valid
  unfold monthIndex
  omega

/-- Dates are compared by their months, then by their days. -/
theorem lt_iff_monthIndex : a < b ↔ a.monthIndex < b.monthIndex ∨
    a.monthIndex = b.monthIndex ∧ a.day < b.day := by
  have ha := a.month_valid
  have hb := b.month_valid
  rw [lt_iff]
  unfold monthIndex
  omega

/-- Up to the day itself, the order is that of the months, then that of the
days. -/
theorem le_iff_monthIndex : a ≤ b ↔ a.monthIndex < b.monthIndex ∨
    a.monthIndex = b.monthIndex ∧ a.day ≤ b.day := by
  rw [← not_lt, lt_iff_monthIndex]
  omega

/-- The month of the day after: the next one, behind the last day of a
month. -/
theorem monthIndex_next :
    d.next.monthIndex = d.monthIndex +
      (if d.day < daysInMonth d.year d.month then 0 else 1) := by
  have hmonth := d.month_valid
  unfold next monthIndex
  split
  · simp
  · split <;> simp only [firstOf] <;> omega

/-- The day after is the first of all later days. -/
theorem next_le_iff : a.next ≤ b ↔ a < b := by
  have ha := a.day_valid
  have hb := b.day_valid
  have hmonth := monthIndex_next (d := a)
  have hday : a.next.day =
      if a.day < daysInMonth a.year a.month then a.day + 1 else 1 := by
    unfold next
    split
    · rfl
    · split <;> rfl
  rw [le_iff_monthIndex, lt_iff_monthIndex, hmonth, hday]
  split
  · omega
  · next hlast =>
      -- No day of the month is behind its last one.
      have hnone : a.monthIndex = b.monthIndex → ¬ a.day < b.day := by
        intro hsame
        obtain ⟨hyear, hmonth⟩ := monthIndex_inj.1 hsame
        rw [← hyear, ← hmonth] at hb
        omega
      omega

/-- The month changes behind its last day. -/
theorem month_ne_next_iff :
    d.month ≠ d.next.month ↔ d.day = daysInMonth d.year d.month := by
  have hmonth := d.month_valid
  have hday := d.day_valid
  unfold next
  split
  · simp
    omega
  · split <;> simp [firstOf] <;> omega

/-! ### Days and months that are added -/

/-- The date so many days later, or earlier where there are less than
none. -/
def addDays (d : Date) : Int → Date
  | .ofNat n => next^[n] d
  | .negSucc n => prev^[n + 1] d

/-- A day more is the day after. -/
theorem addDays_one : d.addDays 1 = d.next := rfl

/-- The date so many months later: the same day of that month, or the last
one if the month is too short. -/
def addMonths (d : Date) (k : Int) : Date where
  year := (d.monthIndex + k) / 12
  month := ((d.monthIndex + k) % 12).toNat + 1
  day := min d.day (daysInMonth ((d.monthIndex + k) / 12)
    (((d.monthIndex + k) % 12).toNat + 1))
  month_valid := by omega
  day_valid := by
    have hday := d.day_valid
    have hlength := daysInMonth_pos ((d.monthIndex + k) / 12)
      (((d.monthIndex + k) % 12).toNat + 1)
    omega

/-- Months are added to the month exactly. Only the day gives way where the
month is too short for it. -/
theorem monthIndex_addMonths :
    (d.addMonths k).monthIndex = d.monthIndex + k := by
  simp only [monthIndex, addMonths]
  omega

/-- No months lead to the date itself. -/
theorem addMonths_zero : d.addMonths 0 = d := by
  have hindex := monthIndex_addMonths (d := d) (k := 0)
  rw [Int.add_zero] at hindex
  obtain ⟨hyear, hmonth⟩ := monthIndex_inj.1 hindex
  refine Date.ext hyear hmonth ?_
  have hday : (d.addMonths 0).day =
      min d.day (daysInMonth (d.addMonths 0).year (d.addMonths 0).month) :=
    rfl
  rw [hday, hyear, hmonth]
  exact min_eq_left d.day_valid.2

/-- When a date that went on by months is not after another: its month is an
earlier one, or the same and its day has come. -/
theorem addMonths_le_iff : a.addMonths k ≤ b ↔
    a.monthIndex + k < b.monthIndex ∨
      a.monthIndex + k = b.monthIndex ∧
        (a.day ≤ b.day ∨ b.day = daysInMonth b.year b.month) := by
  have hb := b.day_valid
  rw [le_iff_monthIndex, monthIndex_addMonths]
  refine or_congr_right (and_congr_right fun hsame => ?_)
  rw [← monthIndex_addMonths] at hsame
  obtain ⟨hyear, hmonth⟩ := monthIndex_inj.1 hsame
  have hday : (a.addMonths k).day =
      min a.day (daysInMonth (a.addMonths k).year (a.addMonths k).month) :=
    rfl
  rw [hday, hyear, hmonth]
  omega

/-! ### The months between -/

/-- What has to be added to the months between two dates that were counted
without the days: in either direction one less counts if the later one has not
reached the day of the earlier one. -/
def monthCorrection (later earlier : Date) : Int :=
  if earlier < later then
    if earlier.day ≤ later.day then 0
    else if later.month ≠ later.next.month then 0
    else -1
  else if earlier.month ≠ earlier.next.month then 0
  else if later.day ≤ earlier.day then 0
  else 1

/-- The months between two dates. -/
def monthsBetween (later earlier : Date) : Int :=
  (later.year - earlier.year) * 12 +
    ((later.month : Int) - (earlier.month : Int)) +
    later.monthCorrection earlier

/-- To a date that is not earlier, one month less counts if its day has not
come. -/
theorem monthCorrection_of_le (h : a ≤ b) :
    b.monthCorrection a =
      if a.day ≤ b.day ∨ b.day = daysInMonth b.year b.month then 0
      else -1 := by
  rw [monthCorrection, ite_or]
  rcases h.lt_or_eq with hlt | rfl
  · simp only [if_pos hlt, month_ne_next_iff]
  · simp

/-- The other way round, what is corrected is the opposite. -/
theorem monthCorrection_swap (a b : Date) :
    a.monthCorrection b = -b.monthCorrection a := by
  unfold monthCorrection
  -- One of the two is the branch for each direction.
  rcases lt_trichotomy a b with hlt | rfl | hlt
  · rw [if_pos hlt, if_neg hlt.asymm]
    split_ifs <;> rfl
  · simp
  · rw [if_pos hlt, if_neg hlt.asymm]
    split_ifs <;> rfl

/-- The months to a date that is not earlier. -/
theorem monthsBetween_of_le (h : a ≤ b) :
    b.monthsBetween a = b.monthIndex - a.monthIndex +
      (if a.day ≤ b.day ∨ b.day = daysInMonth b.year b.month then 0
        else -1) := by
  rw [monthsBetween, monthCorrection_of_le h]
  unfold monthIndex
  omega

/-- The other way round, the months between two dates are negative. -/
theorem monthsBetween_swap (a b : Date) :
    a.monthsBetween b = -b.monthsBetween a := by
  rw [monthsBetween, monthsBetween, monthCorrection_swap]
  omega

/-- From a date to itself there are no months. -/
theorem monthsBetween_self (d : Date) : d.monthsBetween d = 0 := by
  simp [monthsBetween, monthCorrection]

/-- From an earlier date, the months between are the most that it can go on
by without being after the later one. -/
theorem isGreatest_monthsBetween (h : a ≤ b) :
    IsGreatest {k : Int | a.addMonths k ≤ b} (b.monthsBetween a) := by
  have hmonths := monthsBetween_of_le h
  constructor
  · show a.addMonths _ ≤ b
    rw [addMonths_le_iff, hmonths]
    split_ifs with hday
    · exact .inr ⟨by omega, hday⟩
    · exact .inl (by omega)
  · intro k hk
    rcases addMonths_le_iff.1 hk with hearlier | ⟨hsame, hday⟩
    · rw [hmonths]
      split_ifs <;> omega
    · rw [hmonths, if_pos hday]
      omega

example : monthsBetween ⟨2024, 2, 29, by decide, by decide⟩
    ⟨2023, 10, 31, by decide, by decide⟩ = 4 := by
  decide +kernel

/-- To a date that is not earlier there are no less than no months. -/
theorem monthsBetween_nonneg (h : a ≤ b) : 0 ≤ b.monthsBetween a :=
  (isGreatest_monthsBetween h).2 (show a.addMonths 0 ≤ b by
    rwa [addMonths_zero])

end SchemaEvolution.Calendar.Date

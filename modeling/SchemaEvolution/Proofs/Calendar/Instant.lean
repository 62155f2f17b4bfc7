import SchemaEvolution.Calendar.Instant
import SchemaEvolution.Proofs.Text.Digits

/-!
# `SchemaEvolution.Proofs.Calendar.Instant`: a time that was written is read

The reader of instants takes more texts than the writer gives, and the
same instant from many of them. Whatever the writer gives, it takes, and
as the instant that was written: years with a sign, leap seconds and
every number of decimals included.

* `Date.year?_yearText`: a year is read back.
* `Date.parse?_text`: so is a date in range.
* `Instant.fraction?_fractionText`: so are the decimals of a second.
* `Instant.time?_append`: so is the time of the day.
* `Instant.parse?_text`: so is an instant.
-/

set_option autoImplicit false

namespace SchemaEvolution.Calendar

open SchemaEvolution.Text

/-! ### Numbers in a row -/

/-- The digits of a number do not begin with white space. -/
theorem clear_padded (width n : Nat) (rest : List Char) :
    Clear isWhiteSpace ((padded width n).toList ++ rest) := by
  obtain ⟨c, cs, hcs⟩ := List.exists_cons_of_ne_nil (padded_ne_nil width n)
  have hdigit : c.isDigit = true :=
    isDigit_of_mem_padded (by rw [hcs]; exact List.mem_cons_self)
  rw [hcs]
  exact clear_cons.mpr (isWhiteSpace_of_isDigit hdigit)

/-- Two digits are read back where white space may stand before them. -/
theorem number?_skipBlanks {n : Nat} (h : n < 100) (rest : List Char) :
    number? 2 (skipBlanks ((padded 2 n).toList ++ rest)) =
      some (n, rest) := by
  rw [skipBlanks_of_clear (clear_padded 2 n rest)]
  exact number?_padded (by decide) h rest

theorem expect?_cons (c : Char) (rest : List Char) :
    expect? c (c :: rest) = some rest :=
  if_pos rfl

/-! ### Dates -/

namespace Date

/-- A year that does not begin with a sign has four digits at most. -/
theorem year?_of_isDigit {c : Char} (h : c.isDigit = true)
    (rest : List Char) :
    year? (c :: rest) =
      (number? 4 (c :: rest)).map fun (n, rest) => ((n : Int), rest) := by
  unfold year?
  split
  · rename_i heq
    rw [(List.cons.inj heq).1] at h
    exact absurd h (by decide)
  · rename_i heq
    rw [(List.cons.inj heq).1] at h
    exact absurd h (by decide)
  · rfl

/-- The number behind the sign of a year has all the digits that there
are. -/
theorem number?_length_padded (width n : Nat) {rest : List Char}
    (h : Clear Char.isDigit rest) :
    number? ((padded width n).toList ++ rest).length
      ((padded width n).toList ++ rest) = some (n, rest) := by
  rw [number?_append (padded_ne_nil width n)
    (fun _ => isDigit_of_mem_padded) (by simp) (.inr h),
    digitsValue_padded]

/-- A year stands as four digits, or behind a sign. -/
theorem yearText_cases (year : Int) :
    0 ≤ year ∧ year ≤ 9999 ∧
      (yearText year).toList = (padded 4 year.toNat).toList ∨
    year < 0 ∧
      (yearText year).toList = '-' :: (padded 4 year.natAbs).toList ∨
    9999 < year ∧
      (yearText year).toList = '+' :: (padded 4 year.natAbs).toList := by
  unfold yearText
  split
  · rename_i hrange
    exact .inl ⟨hrange.1, hrange.2, rfl⟩
  split
  · exact .inr (.inl ⟨‹_›, String.toList_append⟩)
  · exact .inr (.inr ⟨by omega, String.toList_append⟩)

/-- A year is read back. -/
theorem year?_yearText (year : Int) {rest : List Char}
    (h : Clear Char.isDigit rest) :
    year? ((yearText year).toList ++ rest) = some (year, rest) := by
  have hsigned := number?_length_padded 4 year.natAbs h
  rcases yearText_cases year with ⟨hlow, hhigh, htext⟩ | ⟨hyear, htext⟩ |
    ⟨hyear, htext⟩
  · obtain ⟨c, cs, hcs⟩ := List.exists_cons_of_ne_nil
      (padded_ne_nil 4 year.toNat)
    have hdigit : c.isDigit = true :=
      isDigit_of_mem_padded (by rw [hcs]; exact List.mem_cons_self)
    have hnumber : number? 4 ((padded 4 year.toNat).toList ++ rest) = _ :=
      number?_padded (by decide) (show _ < 10000 by omega) rest
    rw [htext, hcs, List.cons_append] at *
    rw [year?_of_isDigit hdigit, hnumber, Option.map_some]
    simp only [Int.toNat_of_nonneg hlow]
  · rw [htext, List.cons_append, year?, hsigned, Option.map_some]
    simp only [show -(year.natAbs : Int) = year by omega]
  · rw [htext, List.cons_append, year?, hsigned, Option.map_some]
    simp only [show (year.natAbs : Int) = year by omega]

/-- A year does not begin with white space. -/
theorem clear_yearText (year : Int) (rest : List Char) :
    Clear isWhiteSpace ((yearText year).toList ++ rest) := by
  rcases yearText_cases year with ⟨-, -, htext⟩ | ⟨-, htext⟩ | ⟨-, htext⟩
  · rw [htext]
    exact clear_padded 4 year.toNat rest
  · rw [htext]
    exact clear_cons.mpr rfl
  · rw [htext]
    exact clear_cons.mpr rfl

/-- The months of a year have 31 days at most. -/
theorem daysInMonth_le (year : Int) (month : Nat) :
    daysInMonth year month ≤ 31 := by
  unfold daysInMonth
  split
  · split <;> omega
  · split <;> omega

/-- These three numbers make the date that they were taken from. -/
theorem ofParts?_parts (d : Date) :
    ofParts? d.year d.month d.day = some d := by
  rw [ofParts?, dif_pos ⟨d.month_valid, d.day_valid⟩]

/-- A date is read back from the front of a text, if what is removed
before a dash is no dash. -/
theorem read?_text {beforeDash : List Char → List Char}
    (hdash : ∀ cs, beforeDash ('-' :: cs) = '-' :: cs) (d : Date)
    (rest : List Char) :
    read? beforeDash (d.text.toList ++ rest) = some (d, rest) := by
  have hmonth := d.month_valid.2
  have hday := Nat.le_trans d.day_valid.2 (daysInMonth_le d.year d.month)
  have htext : d.text.toList ++ rest = (yearText d.year).toList ++
      '-' :: ((padded 2 d.month).toList ++
        '-' :: ((padded 2 d.day).toList ++ rest)) := by
    simp [text]
  unfold read?
  rw [htext, skipBlanks_of_clear (clear_yearText _ _),
    year?_yearText _ (clear_cons.mpr rfl)]
  have hmonthRead := number?_skipBlanks (n := d.month) (by omega)
  have hdayRead := number?_skipBlanks (n := d.day) (by omega)
  simp [hdash, expect?_cons, hmonthRead, hdayRead, ofParts?_parts]

/-- A date in range is read back. -/
theorem parse?_text {d : Date} (h : d.InRange) : parse? d.text = some d := by
  have hread : read? id (d.text.toList ++ []) = some (d, []) :=
    read?_text (fun _ => rfl) d []
  rw [List.append_nil] at hread
  rw [parse?, hread]
  simp only [if_pos h]

end Date

/-! ### Times of the day -/

namespace Instant

/-- Decimals count as many digits of nine as there are. -/
theorem fraction?_padded {width k : Nat} (hwidth : 0 < width)
    (hnine : width ≤ 9) (hk : k < Nat.pow 10 width) {rest : List Char}
    (h : Clear Char.isDigit rest) :
    fraction? ('.' :: ((padded width k).toList ++ rest)) =
      some (Nat.pow 10 (9 - width) * k, rest) := by
  have hlength := length_padded hwidth hk
  have htake : ((padded width k).toList ++ rest).takeWhile Char.isDigit =
      (padded width k).toList :=
    takeWhile_append_clear (fun _ => isDigit_of_mem_padded) h
  -- Zeros are put behind the digits, up to the ninth.
  have hnines : ((padded width k).toList ++ List.replicate 9 '0').take 9 =
      (padded width k).toList ++ List.replicate (9 - width) '0' := by
    rw [List.take_append, List.take_of_length_le (by omega), hlength,
      List.take_replicate, Nat.min_eq_left (by omega)]
  have hvalue : digitsValue ((padded width k).toList ++
      List.replicate (9 - width) '0') = Nat.pow 10 (9 - width) * k := by
    rw [digitsValue, Nat.ofDigitChars_append,
      Nat.ofDigitChars_replicate_zero]
    exact congrArg _ (digitsValue_padded width k)
  have hne : (padded width k).toList.isEmpty = false := by
    simpa using padded_ne_nil width k
  simp only [fraction?, htake, hne, hnines, hvalue, List.drop_left]
  rfl

/-- The decimals of a second are read back. -/
theorem fraction?_fractionText {nano : Nat} (hnano : nano < nanosPerSecond)
    {rest : List Char} (hdigit : Clear Char.isDigit rest)
    (hpoint : rest.head? ≠ some '.') :
    fraction? ((fractionText nano).toList ++ rest) = some (nano, rest) := by
  unfold nanosPerSecond at hnano
  unfold fractionText
  split
  · -- No fraction is written for whole seconds, and none is read where no
    -- point follows.
    rename_i hzero
    rw [hzero]
    show fraction? rest = _
    unfold fraction?
    split
    · simp at hpoint
    · rfl
  -- Otherwise as few groups of three digits are written as tell the
  -- fraction, and what they are read as is scaled back.
  split
  · have hvalue : 1000000 * (nano / 1000000) = nano := by omega
    rw [String.toList_append]
    refine (fraction?_padded (by decide) (by decide)
      (show nano / 1000000 < 1000 by omega) hdigit).trans ?_
    exact congrArg (fun n => some (n, rest)) hvalue
  split
  · have hvalue : 1000 * (nano / 1000) = nano := by omega
    rw [String.toList_append]
    refine (fraction?_padded (by decide) (by decide)
      (show nano / 1000 < 1000000 by omega) hdigit).trans ?_
    exact congrArg (fun n => some (n, rest)) hvalue
  · have hvalue : 1 * nano = nano := Nat.one_mul nano
    rw [String.toList_append]
    refine (fraction?_padded (by decide) (by decide)
      (show nano < 1000000000 by omega) hdigit).trans ?_
    exact congrArg (fun n => some (n, rest)) hvalue

/-- The characters of the time of the day. -/
def timeChars (i : Instant) : List Char :=
  (padded 2 (i.second / 3600)).toList ++
    ':' :: ((padded 2 (i.second / 60 % 60)).toList ++
      ':' :: ((padded 2 (i.second % 60 + i.nano / nanosPerSecond)).toList ++
        (fractionText (i.nano % nanosPerSecond)).toList))

/-- The time of the day is read back; a second 60 is a part of the
second before it. -/
theorem time?_append (i : Instant) {rest : List Char}
    (hdigit : Clear Char.isDigit rest) (hpoint : rest.head? ≠ some '.') :
    time? (i.timeChars ++ rest) = some ((i.second, i.nano), rest) := by
  have hsecond := i.second_lt
  have hnano := i.nano_lt
  have hleap := i.leap
  have hpart : i.nano % nanosPerSecond < nanosPerSecond :=
    Nat.mod_lt _ (by decide)
  unfold secondsPerDay at hsecond
  have hhour := number?_skipBlanks (n := i.second / 3600) (by omega)
  have hminute := number?_skipBlanks (n := i.second / 60 % 60) (by omega)
  have hclock := number?_skipBlanks
    (n := i.second % 60 + i.nano / nanosPerSecond) (by
      unfold nanosPerSecond at *; omega)
  have hcolon : ∀ cs, skipBlanks (':' :: cs) = ':' :: cs := fun _ => rfl
  have hfraction := fraction?_fractionText hpart hdigit hpoint
  unfold time? timeChars
  simp only [List.append_assoc, List.cons_append, hhour, hminute, hclock,
    hcolon, expect?_cons, hfraction, Option.bind_eq_bind, Option.bind_some]
  rw [if_pos (by unfold nanosPerSecond at *; omega)]
  -- The clock shows second 60 in a leap second, and only there.
  by_cases hover : nanosPerSecond ≤ i.nano
  · have hlast := i.leap hover
    have hone : i.nano / nanosPerSecond = 1 := by
      unfold nanosPerSecond at *; omega
    have hminutes : (i.second / 3600 * 60 + i.second / 60 % 60) * 60 + 59 =
        i.second := by omega
    have hnanos : nanosPerSecond + i.nano % nanosPerSecond = i.nano := by
      unfold nanosPerSecond at *; omega
    rw [if_pos (by omega), hminutes, hnanos]
  · have hzero : i.nano / nanosPerSecond = 0 :=
      Nat.div_eq_of_lt (Nat.lt_of_not_le hover)
    have hseconds : (i.second / 3600 * 60 + i.second / 60 % 60) * 60 +
        i.second % 60 = i.second := by omega
    have hnanos : i.nano % nanosPerSecond = i.nano :=
      Nat.mod_eq_of_lt (Nat.lt_of_not_le hover)
    rw [hzero, if_neg (by omega), Nat.add_zero, hseconds, hnanos]

/-- An instant is read back. -/
theorem parse?_text (i : Instant) : parse? i.text = some i := by
  have htext : i.text.toList = i.date.text.toList ++
      'T' :: (i.timeChars ++ ['Z']) := by
    simp [text, timeChars]
  have hdate : ∀ cs, Date.read? skipBlanks (i.date.text.toList ++ cs) =
      some (i.date, cs) :=
    Date.read?_text (fun _ => rfl) i.date
  have hseparator : ∀ cs, afterSeparator? ('T' :: cs) = some cs :=
    fun _ => rfl
  have htime : time? (i.timeChars ++ ['Z']) = _ :=
    i.time?_append (clear_cons.mpr rfl) (by simp)
  have hzone : offset? (skipBlanks ['Z']) = some (0, []) := rfl
  have hend : (skipBlanks []).isEmpty = true ∧
      (0 : Int).natAbs < secondsPerDay ∧ i.date.InRange :=
    ⟨rfl, by unfold secondsPerDay; decide, i.inRange⟩
  have hparts : ofParts? i.date i.second i.nano = some i := by
    rw [ofParts?, dif_pos ⟨i.second_lt, i.nano_lt, i.leap, i.inRange⟩]
  unfold parse?
  simp only [htext, hdate, hseparator, htime, hzone, Option.bind_eq_bind,
    Option.bind_some]
  rw [if_pos hend, shift?_zero i.second_lt, hparts]

end Instant

end SchemaEvolution.Calendar

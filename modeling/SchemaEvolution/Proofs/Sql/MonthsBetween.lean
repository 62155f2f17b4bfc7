import SchemaEvolution.Proofs.Calendar.Instant
import SchemaEvolution.Proofs.Sql.NuoDbArithmetic
import SchemaEvolution.Proofs.Sql.ScalarText

/-!
# `SchemaEvolution.Proofs.Sql.MonthsBetween`: the months that NuoDB counts

NuoDB has no function for the months between two dates, so they are computed
in SQL: the months are counted without the days, and a `CASE` with a branch
for each direction corrects the count by one where the day has not come.

The two dates go into the text as they are written, each of them seven times
and beside operators. They stay whole there because what is written for an
expression that may be a date is one term: a column, or the call of a
function.

* `derives_monthsScalar`: what the text is read as, whatever the terms are.
* `value?_monthsScalar`: what is computed are the months between two dates.
* `word_or_term`: what is written for an expression that may be a date.
* `value?_date`: a constant has the date that it was written for.
* `whole_months`: the value of the text for all dates, in both directions.
-/

set_option autoImplicit false

namespace SchemaEvolution

open SchemaEvolution.Calendar
open SchemaEvolution.Sql
open SchemaEvolution.Sql.Scalar

namespace NuoDb

/-! ### What the text computes -/

/-- A number as an expression. -/
def ofNumber (i : Int) : Scalar := .operand (.number i)

/-- A part of an expression. -/
def partOf (part : DatePart) (s : Scalar) : Scalar :=
  .operand (.extract part s)

/-- The difference between the same part of two expressions. -/
def difference (part : DatePart) (s t : Scalar) : Scalar :=
  .operation .minus (partOf part s) (partOf part t)

/-- `yes` where `s` has reached the day of `t`, and `no` otherwise. -/
def ifDayReached (s t yes no : Scalar) : Scalar :=
  chosen .gtEq (partOf .day s) (partOf .day t) yes no

/-- `yes` on the last day of a month, and `no` otherwise. -/
def ifMonthEnds (s yes no : Scalar) : Scalar :=
  chosen .notEq (partOf .month s)
    (partOf .month (.operation .plus s (ofNumber 1))) yes no

/-- What corrects the count of the months. -/
def correction (later earlier : Scalar) : Scalar :=
  chosen .gt later earlier
    (ifDayReached later earlier (ofNumber 0)
      (ifMonthEnds later (ofNumber 0) (ofNumber (-1))))
    (ifMonthEnds earlier (ofNumber 0)
      (ifDayReached earlier later (ofNumber 0) (ofNumber 1)))

/-- What the months between two expressions are computed as. -/
def monthsScalar (later earlier : Scalar) : Scalar :=
  .operation .plus
    (.operation .plus
      (.operation .times (difference .year later earlier) (ofNumber 12))
      (difference .month later earlier))
    (correction later earlier)

section Values

variable {row : List Lexeme → Option Value} {s t yes no : Scalar}
  {d later earlier : Date}

/-- A number has itself as its value. -/
theorem value?_ofNumber (i : Int) :
    Scalar.value? row (ofNumber i) = some (.number i) := rfl

/-- A choice has the value of the one or the other. -/
theorem value?_chosen {test : Comparison} {a b : Value} {c : Bool}
    (hs : Scalar.value? row s = some a) (ht : Scalar.value? row t = some b)
    (hc : test.holds? a b = some c) :
    Scalar.value? row (chosen test s t yes no) =
      if c then Scalar.value? row yes else Scalar.value? row no := by
  simp [chosen, Scalar.value?, Primary.value?, hs, ht, hc]

/-- An operation has the value that it makes of those of its operands. -/
theorem value?_operation {a b : Value} (op : Operator)
    (hs : Scalar.value? row s = some a)
    (ht : Scalar.value? row t = some b) :
    Scalar.value? row (.operation op s t) = op.value? a b := by
  simp [Scalar.value?, hs, ht]

/-- A part of a date is a number. -/
theorem value?_partOf (part : DatePart)
    (hs : Scalar.value? row s = some (.date d)) :
    Scalar.value? row (partOf part s) = some (.number (part.of d)) := by
  simp [partOf, Scalar.value?, Primary.value?, hs]

/-- The difference between the same parts of two dates is that of the
numbers. -/
theorem value?_difference (part : DatePart)
    (hs : Scalar.value? row s = some (.date later))
    (ht : Scalar.value? row t = some (.date earlier)) :
    Scalar.value? row (difference part s t) =
      some (.number (part.of later - part.of earlier)) :=
  value?_operation .minus (value?_partOf part hs) (value?_partOf part ht)

/-- The choice by the days is made by the days of the dates, the earlier one
as the bound. -/
theorem value?_ifDayReached
    (hs : Scalar.value? row s = some (.date later))
    (ht : Scalar.value? row t = some (.date earlier)) :
    Scalar.value? row (ifDayReached s t yes no) =
      if earlier.day ≤ later.day then Scalar.value? row yes
      else Scalar.value? row no := by
  rw [ifDayReached, value?_chosen (value?_partOf .day hs)
    (value?_partOf .day ht) rfl]
  simp [DatePart.of]

/-- A month ends on the day whose next day is in another month. The formula
asks for this by adding a day. -/
theorem value?_ifMonthEnds (hs : Scalar.value? row s = some (.date d)) :
    Scalar.value? row (ifMonthEnds s yes no) =
      if d.month ≠ d.next.month then Scalar.value? row yes
      else Scalar.value? row no := by
  -- A day more is the day after.
  have hnext : Scalar.value? row (.operation .plus s (ofNumber 1)) =
      some (.date d.next) := by
    rw [value?_operation .plus hs (value?_ofNumber 1), Operator.value?,
      Date.addDays_one]
  rw [ifMonthEnds, value?_chosen (value?_partOf .month hs)
    (value?_partOf .month hnext) rfl]
  simp only [DatePart.of, decide_eq_true_eq, ne_eq, Int.natCast_inj]

/-- The correction of the formula is that of the calendar, branch by branch.
-/
theorem value?_correction
    (hs : Scalar.value? row s = some (.date later))
    (ht : Scalar.value? row t = some (.date earlier)) :
    Scalar.value? row (correction s t) =
      some (.number (later.monthCorrection earlier)) := by
  rw [correction, value?_chosen hs ht rfl, value?_ifDayReached hs ht,
    value?_ifMonthEnds hs, value?_ifMonthEnds ht, value?_ifDayReached ht hs]
  simp only [value?_ofNumber, decide_eq_true_eq]
  unfold Date.monthCorrection
  split_ifs <;> rfl

/-- The text computes the months between two dates. -/
theorem value?_monthsScalar
    (hs : Scalar.value? row s = some (.date later))
    (ht : Scalar.value? row t = some (.date earlier)) :
    Scalar.value? row (monthsScalar s t) =
      some (.number (later.monthsBetween earlier)) := by
  have hyears := value?_operation .times (value?_difference .year hs ht)
    (value?_ofNumber 12)
  have hcount := value?_operation .plus hyears
    (value?_difference .month hs ht)
  exact value?_operation .plus hcount (value?_correction hs ht)

end Values

/-! ### How the text is read -/

/-- The constants of the text behind its holes. -/
def monthsBehind : List String :=
  [") - EXTRACT(YEAR FROM ", ")) * 12 + (EXTRACT(MONTH FROM ",
    ") - EXTRACT(MONTH FROM ", ")) + CASE WHEN ", " > ",
    " THEN CASE WHEN EXTRACT(DAY FROM ", ") >= EXTRACT(DAY FROM ",
    ") THEN 0 WHEN EXTRACT(MONTH FROM ", ") <> EXTRACT(MONTH FROM ",
    " + 1) THEN 0 ELSE -1 END ELSE CASE WHEN EXTRACT(MONTH FROM ",
    ") <> EXTRACT(MONTH FROM ", " + 1) THEN 0 WHEN EXTRACT(DAY FROM ",
    ") >= EXTRACT(DAY FROM ", ") THEN 0 ELSE 1 END END)"]

/-- The months between two dates as a template. -/
theorem monthsBetween_eq_fill (l e : String) :
    monthsBetween l e = fill "((EXTRACT(YEAR FROM "
      [l, e, l, e, l, e, l, e, l, l, e, e, e, l] monthsBehind :=
  rfl

/-- The pieces before the operand of an `EXTRACT`. -/
def extractFront (part : DatePart) : List Piece :=
  [.keyword .EXTRACT, .opening .round, .term [.word part.text],
    .keyword .FROM]

/-- The pieces of the constants. -/
def monthsBehindPieces : List (List Piece) :=
  let close := Piece.closing .round
  [close :: .operator .minus :: extractFront .year,
    close :: close :: .operator .times :: .number 12 :: .operator .plus ::
      .opening .round :: extractFront .month,
    close :: .operator .minus :: extractFront .month,
    [close, close, .operator .plus, .opening .cases, .keyword .WHEN],
    [.mark '>'],
    .keyword .THEN :: .opening .cases :: .keyword .WHEN ::
      extractFront .day,
    close :: .mark '>' :: .mark '=' :: extractFront .day,
    close :: .keyword .THEN :: .number 0 :: .keyword .WHEN ::
      extractFront .month,
    close :: .mark '<' :: .mark '>' :: extractFront .month,
    .operator .plus :: .number 1 :: close :: .keyword .THEN :: .number 0 ::
      .keyword .ELSE :: .operator .minus :: .number 1 :: .closing .cases ::
      .keyword .ELSE :: .opening .cases :: .keyword .WHEN ::
      extractFront .month,
    close :: .mark '<' :: .mark '>' :: extractFront .month,
    .operator .plus :: .number 1 :: close :: .keyword .THEN :: .number 0 ::
      .keyword .WHEN :: extractFront .day,
    close :: .mark '>' :: .mark '=' :: extractFront .day,
    [close, .keyword .THEN, .number 0, .keyword .ELSE, .number 1,
      .closing .cases, .closing .cases, close]]

/-- The constant parts of the formula are cut into pieces by computation. -/
theorem behindPieces?_monthsBehind :
    behindPieces? monthsBehind = some monthsBehindPieces := by
  decide +kernel

section Derivations

variable {level : Level} {l e ps qs : List Piece} {s t yes no : Scalar}

/-- The pieces of a part of an expression. -/
def partPieces (part : DatePart) (ps : List Piece) : List Piece :=
  extractFront part ++ (ps ++ [.closing .round])

/-- A number stands wherever a scalar may. -/
theorem derives_ofNumber (n : Nat) :
    Derives (.scalar level) [.number n] (ofNumber n) :=
  .ofPrimary (.number n)

/-- The part of an expression is a primary, so it stands wherever a scalar
may. -/
theorem derives_partOf (part : DatePart)
    (hs : Derives (.scalar .primary) ps s) :
    Derives (.scalar level) (partPieces part ps) (partOf part s) :=
  .ofPrimary (.extract part (.ofPrimary hs))

/-- A difference in brackets is a primary as well. -/
theorem derives_difference (part : DatePart)
    (hs : Derives (.scalar .primary) ps s)
    (ht : Derives (.scalar .primary) qs t) :
    Derives (.scalar level)
      (.opening .round :: (partPieces part ps ++ .operator .minus ::
        partPieces part qs ++ [.closing .round]))
      (difference part s t) := by
  have hboth : Derives (.scalar .sum) _ (difference part s t) :=
    .join .minus (derives_partOf part hs) (derives_partOf part ht)
  exact .ofPrimary (.group hboth)

/-- The choice by the days is a row of branches, of which this is the first.
-/
theorem derives_ifDayReached {ys ns : List Piece}
    (hs : Derives (.scalar .primary) ps s)
    (ht : Derives (.scalar .primary) qs t)
    (hyes : Derives (.scalar .sum) ys yes) (hno : Derives .behind ns no) :
    Derives .branches
      (.keyword .WHEN :: (partPieces .day ps ++ .mark '>' :: .mark '=' ::
        (partPieces .day qs ++ .keyword .THEN :: (ys ++ ns))))
      (ifDayReached s t yes no) :=
  .branch .gtEq nofun (derives_partOf .day hs) (derives_partOf .day ht) hyes
    hno

/-- So is the choice by the end of a month, whose second side has a sum in
the brackets of its part. -/
theorem derives_ifMonthEnds {ys ns : List Piece}
    (hs : Derives (.scalar .primary) ps s)
    (hyes : Derives (.scalar .sum) ys yes) (hno : Derives .behind ns no) :
    Derives .branches
      (.keyword .WHEN :: (partPieces .month ps ++ .mark '<' :: .mark '>' ::
        (extractFront .month ++ (ps ++ [.operator .plus, .number 1] ++
          [.closing .round]) ++ .keyword .THEN :: (ys ++ ns))))
      (ifMonthEnds s yes no) := by
  have hnext : Derives (.scalar .sum) (ps ++ [.operator .plus, .number 1])
      (.operation .plus s (ofNumber 1)) :=
    .join .plus (.ofPrimary hs) (derives_ofNumber 1)
  have hmonth : Derives (.scalar .sum) _ (partOf .month _) :=
    .ofPrimary (.extract .month hnext)
  exact .branch .notEq nofun (derives_partOf .month hs) hmonth hyes hno

end Derivations

/-- A term as an expression. -/
def ofTerm (ls : List Lexeme) : Scalar := .operand (.term ls)

/-- The pieces of the text are those of the months between two terms. -/
theorem derives_monthsScalar (l e : List Lexeme) :
    Derives (.scalar .sum)
      (weave (.opening .round :: .opening .round :: extractFront .year)
        [l, e, l, e, l, e, l, e, l, l, e, e, e, l] monthsBehindPieces)
      (monthsScalar (ofTerm l) (ofTerm e)) := by
  have hl : Derives (.scalar .primary) [.term l] (ofTerm l) := .term l
  have he : Derives (.scalar .primary) [.term e] (ofTerm e) := .term e
  have hyears : Derives (.scalar .product) _
      (.operation .times (difference .year (ofTerm l) (ofTerm e))
        (ofNumber 12)) :=
    .join .times (derives_difference .year hl he) (derives_ofNumber 12)
  have hcount := Derives.join .plus (.product hyears)
    (derives_difference .month hl he)
  -- Where a number is to come, the minus is its sign.
  have hlast : Derives (.scalar .sum) _ (ofNumber (-1)) :=
    .ofPrimary (.negative 1)
  have hlater : Derives (.scalar .sum) _
      (ifDayReached (ofTerm l) (ofTerm e) (ofNumber 0)
        (ifMonthEnds (ofTerm l) (ofNumber 0) (ofNumber (-1)))) :=
    .ofPrimary (.cases (derives_ifDayReached hl he (derives_ofNumber 0)
      (.again (derives_ifMonthEnds hl (derives_ofNumber 0)
        (.otherwise hlast)))))
  have hearlier : Derives (.scalar .sum) _
      (ifMonthEnds (ofTerm e) (ofNumber 0)
        (ifDayReached (ofTerm e) (ofTerm l) (ofNumber 0) (ofNumber 1))) :=
    .ofPrimary (.cases (derives_ifMonthEnds he (derives_ofNumber 0)
      (.again (derives_ifDayReached he hl (derives_ofNumber 0)
        (.otherwise (derives_ofNumber 1))))))
  have hcorrection : Derives (.scalar .product)
      (.opening .cases :: .keyword .WHEN :: .term l :: .mark '>' ::
        .term e :: .keyword .THEN :: _)
      (correction (ofTerm l) (ofTerm e)) :=
    .ofPrimary (.cases (.branch .gt nofun (.ofPrimary hl) (.ofPrimary he)
      hlater (.otherwise hearlier)))
  have hall : Derives (.scalar .sum) _
      (monthsScalar (ofTerm l) (ofTerm e)) :=
    .ofPrimary (.group (.join .plus hcount hcorrection))
  -- What is left is where the constants of the template are cut apart.
  simpa [weave, monthsBehindPieces, partPieces, extractFront] using hall

section Texts

variable {q : QuoteRule} {s t : String} {l e : List Lexeme}

/-- The text for the months between two terms has the pieces of its
constants, and the terms in between. -/
theorem hasPieces_monthsBetween (hs : HasTerm q s l) (ht : HasTerm q t e) :
    HasPieces q (monthsBetween s t)
      (weave (.opening .round :: .opening .round :: extractFront .year)
        [l, e, l, e, l, e, l, e, l, l, e, e, e, l] monthsBehindPieces) := by
  have hfront : LeadsPieces q "((EXTRACT(YEAR FROM "
      (.opening .round :: .opening .round :: extractFront .year) :=
    .of_lead? (by decide +kernel)
  rw [monthsBetween_eq_fill]
  exact .fill hfront behindPieces?_monthsBehind (by simp [hs, ht]) rfl
    (by simp)

/-- The text computes the months between the dates of the terms. -/
theorem value?_monthsBetween {row : List Lexeme → Option Value}
    {later earlier : Date} (hs : HasTerm q s l) (ht : HasTerm q t e)
    (hlater : q.value? row s = some (.date later))
    (hearlier : q.value? row t = some (.date earlier)) :
    q.value? row (monthsBetween s t) =
      some (.number (later.monthsBetween earlier)) := by
  rw [hs.value?_eq] at hlater
  rw [ht.value?_eq] at hearlier
  rw [(hasPieces_monthsBetween hs ht).value?_eq (derives_monthsScalar l e)]
  exact value?_monthsScalar hlater hearlier

end Texts

/-! ### What is written as a term -/

/-- Whether a word is the name of a function. -/
def isFunctionName (w : String) : Bool :=
  lead? (w ++ "(") = some [.word w, .opening .round] &&
    Piece.ofText? w = none

/-- Whether a function may give a date. -/
def givesDate : FunctionKind → Bool
  | .now | .addDays | .addMonths | .yyyymmddToDate | .lastDayOfMonth
  | .coalesce | .isNull | .min | .max => true
  | _ => false

/-- Whether an expression may have a date for its value. -/
def mayBeDate : Expr → Bool
  | .field _ => true
  | .literal (.date _) => true
  | .call kind _ => givesDate kind
  | .cast _ type _ _ => type = .date
  | .aliased e _ => mayBeDate e
  | _ => false

section Terms

variable {q : QuoteRule} {s w : String}

/-- The call of a function is one term, whatever its arguments are. -/
theorem hasTerm_call {inner : List Lexeme} (hw : isFunctionName w = true)
    (hs : HasLexemes q s inner) (hinner : Balanced inner) :
    HasTerm q (w ++ "(" ++ s ++ ")")
      (.word w :: .opening .round :: (inner ++ [.closing .round])) := by
  obtain ⟨hlead, hname⟩ := Bool.and_eq_true_iff.1 hw
  have hend : HasLexemes q ")" [.closing .round] :=
    lexemes?_of_constant? (by decide)
  have hcall := Leads.of_lead? (of_decide_eq_true hlead)
    (hs.append hend (by decide))
  rw [← String.append_assoc] at hcall
  exact ⟨hcall, by simp [Plain],
    cut?_call (of_decide_eq_true hname) hinner⟩

/-- A call is one term as soon as its arguments close all that they open. -/
theorem exists_hasTerm (w : String) (hw : isFunctionName w = true)
    (hs : Enclosed q s) : ∃ ls, HasTerm q (w ++ "(" ++ s ++ ")") ls :=
  let ⟨_, hinner, hbalanced⟩ := hs
  ⟨_, hasTerm_call hw hinner hbalanced⟩

/-- A call that is written as its name and its arguments is one term. -/
theorem exists_hasTerm_callText {args : List String} (w : String)
    (hw : isFunctionName w = true) (hargs : ∀ a ∈ args, Enclosed q a) :
    ∃ ls, HasTerm q (callText w args) ls := by
  have hcomma : lead? ", " = some [.mark ','] := by decide
  exact exists_hasTerm w hw
    (.intercalate hcomma (by decide) (by decide) hargs)

/-- A date to which something is added is one term. -/
theorem exists_hasTerm_dateAdd {date count unit : String} {us : List Lexeme}
    (hunit : constant? unit.toList = some us)
    (hseam : begins isSeam unit = true) (hus : Balanced us)
    (hdate : Enclosed q date) (hcount : Enclosed q count) :
    ∃ ls, HasTerm q
      ("DATE_ADD(" ++ date ++ ", INTERVAL " ++ count ++ (unit ++ ")"))
      ls := by
  have htext : "DATE_ADD(" ++ date ++ ", INTERVAL " ++ count ++
      (unit ++ ")") = "DATE_ADD" ++ "(" ++
        (date ++ ", INTERVAL " ++ count ++ unit) ++ ")" := by
    have hfront : "DATE_ADD(" = "DATE_ADD" ++ "(" := by decide
    rw [hfront]
    simp only [String.append_assoc]
  have hinterval : lead? ", INTERVAL " =
      some [.mark ',', .word "INTERVAL"] := by
    decide
  have hbetween := hdate.between hinterval (by decide) (fun _ _ => rfl) hcount
  rw [htext]
  exact exists_hasTerm "DATE_ADD" (by decide +kernel)
    (hbetween.before hunit hseam hus)

/-- The last day of a month is one term: a date from which a day is taken. -/
theorem exists_hasTerm_lastDayOfMonth {date : String}
    (hdate : Enclosed q date) :
    ∃ ls, HasTerm q (lastDayOfMonth date) ls := by
  -- The three functions are within one another: the inner two make the
  -- argument of the outer one.
  have hmonth := splices_fill "DATE_ADD(DATE_SUB("
    [", INTERVAL DAY(", ")-1 DAY), INTERVAL 1 MONTH)"] [date, date] rfl
    (by decide) (by decide) (by simpa using hdate)
  have hday : constant? ", INTERVAL 1 DAY".toList =
      some [.mark ',', .word "INTERVAL", .word "1", .word "DAY"] := by
    decide
  -- The text is written at one go, and cut here where the outer call begins
  -- and ends.
  have htext : lastDayOfMonth date = "DATE_SUB" ++ "(" ++
      (fill "DATE_ADD(DATE_SUB(" [date, date]
        [", INTERVAL DAY(", ")-1 DAY), INTERVAL 1 MONTH)"] ++
        ", INTERVAL 1 DAY") ++ ")" := by
    have hfront : "DATE_SUB(DATE_ADD(DATE_SUB(" =
        "DATE_SUB" ++ "(" ++ "DATE_ADD(DATE_SUB(" := by
      decide
    have hback : ")-1 DAY), INTERVAL 1 MONTH), INTERVAL 1 DAY)" =
        ")-1 DAY), INTERVAL 1 MONTH)" ++ ", INTERVAL 1 DAY" ++ ")" := by
      decide
    unfold lastDayOfMonth
    rw [hfront, hback]
    simp only [fill, String.append_assoc]
  rw [htext]
  exact exists_hasTerm "DATE_SUB" (by decide +kernel)
    (hmonth.closed.enclosed.before hday (by decide) fun _ _ => rfl)

/-- The date that a text spells is one term. -/
theorem exists_hasTerm_dateFromStr {value : String}
    (hvalue : Enclosed q value) :
    ∃ ls, HasTerm q ("DATE_FROM_STR(" ++ value ++ ", 'yyyyMMdd')") ls := by
  have hformat : constant? ", 'yyyyMMdd'".toList =
      some [.mark ',', .literal "yyyyMMdd"] := by
    decide
  have htext : "DATE_FROM_STR(" ++ value ++ ", 'yyyyMMdd')" =
      "DATE_FROM_STR" ++ "(" ++ (value ++ ", 'yyyyMMdd'") ++ ")" := by
    have hfront : "DATE_FROM_STR(" = "DATE_FROM_STR" ++ "(" := by decide
    have hback : ", 'yyyyMMdd')" = ", 'yyyyMMdd'" ++ ")" := by decide
    rw [hfront, hback]
    simp only [String.append_assoc]
  rw [htext]
  exact exists_hasTerm "DATE_FROM_STR" (by decide +kernel)
    (hvalue.before hformat (by decide) fun _ _ => rfl)

/-- A cast is one term. -/
theorem exists_hasTerm_cast {type : String} (hs : Enclosed q s)
    (htype : Enclosed q type) :
    ∃ ls, HasTerm q ("CAST(" ++ s ++ " AS " ++ type ++ ")") ls := by
  have has : lead? " AS " = some [.word "AS"] := by decide
  have htext : "CAST(" ++ s ++ " AS " ++ type ++ ")" =
      "CAST" ++ "(" ++ (s ++ " AS " ++ type) ++ ")" := by
    have hfront : "CAST(" = "CAST" ++ "(" := by decide
    rw [hfront]
    simp only [String.append_assoc]
  rw [htext]
  exact exists_hasTerm "CAST" (by decide +kernel)
    (hs.between has (by decide) (fun _ _ => rfl) htype)

/-- A date is one term. -/
theorem hasTerm_date (d : Date) :
    HasTerm q ("DATE('" ++ d.text ++ "')")
      [.word "DATE", .opening .round, .literal d.text, .closing .round] := by
  have htext : "DATE('" ++ d.text ++ "')" =
      "DATE" ++ "(" ++ ("'" ++ d.text ++ "'") ++ ")" := by
    have hfront : "DATE('" = "DATE" ++ "(" ++ "'" := by decide
    have hback : "')" = "'" ++ ")" := by decide
    rw [hfront, hback]
    simp only [String.append_assoc]
  rw [htext]
  exact hasTerm_call (by decide +kernel) (hasLexemes_quotedDate d)
    (.literal _)

/-- The constant for a date has that date for its value. -/
theorem value?_date {d : Date} (h : d.InRange)
    (row : List Lexeme → Option Value) :
    q.value? row ("DATE('" ++ d.text ++ "')") = some (.date d) := by
  rw [(hasTerm_date d).value?_eq, termValue?, Date.parse?_text h]
  rfl

/-- The calls of functions that may give a date are terms. -/
theorem exists_hasTerm_call {kind : FunctionKind} {args : List String}
    {template : List String → String} (hkind : givesDate kind = true)
    (hcount : kind.Takes args.length)
    (htemplate : NuoDb.call Dialect.nuoDb.name kind = .ok template)
    (hargs : ∀ a ∈ args, Enclosed .escaped a) :
    ∃ ls, HasTerm .escaped (template args) ls := by
  cases kind with
  | now =>
      cases htemplate
      exact exists_hasTerm "CURRENT_TIMESTAMP" (by decide +kernel) .empty
  -- Days and months are added by one function with different units.
  | addDays =>
      cases htemplate
      obtain ⟨a, b, rfl⟩ :=
        List.length_eq_two.1 (Option.some.inj hcount).symm
      obtain ⟨ha, hb⟩ := forall_mem_pair.1 hargs
      have hunit : constant? " DAY".toList = some [.word "DAY"] := by decide
      exact exists_hasTerm_dateAdd hunit (by decide) (.word _) ha hb
  | addMonths =>
      cases htemplate
      obtain ⟨a, b, rfl⟩ :=
        List.length_eq_two.1 (Option.some.inj hcount).symm
      obtain ⟨ha, hb⟩ := forall_mem_pair.1 hargs
      have hunit : constant? " MONTH".toList = some [.word "MONTH"] := by
        decide
      exact exists_hasTerm_dateAdd hunit (by decide) (.word _) ha hb
  | yyyymmddToDate =>
      cases htemplate
      obtain ⟨a, rfl⟩ :=
        List.length_eq_one_iff.1 (Option.some.inj hcount).symm
      exact exists_hasTerm_dateFromStr (hargs a List.mem_cons_self)
  | lastDayOfMonth =>
      cases htemplate
      obtain ⟨a, rfl⟩ :=
        List.length_eq_one_iff.1 (Option.some.inj hcount).symm
      exact exists_hasTerm_lastDayOfMonth (hargs a List.mem_cons_self)
  -- These give one of their arguments, so they are dates only where those
  -- are.
  | coalesce | isNull | min | max =>
      cases htemplate
      exact exists_hasTerm_callText _ (by decide +kernel) hargs
  | _ => cases hkind

end Terms

/-- What is written for an expression that may be a date is a word or one
term. -/
theorem word_or_term : ∀ e : Expr,
    (∀ n ∈ e.nodes, n.hasIdentifiers = true) → mayBeDate e = true →
    ∀ {text : String}, Dialect.nuoDb.exprText e = .ok text →
    HasLexemes .escaped text [.word text] ∨ ∃ ls, HasTerm .escaped text ls
  | .field f, names, _, text, h => by
      obtain rfl : f.text = text := Except.ok.inj h
      exact .inl (hasLexemes_field (names _ List.mem_cons_self))
  | .literal (.date d), _, _, text, h => by
      cases h
      exact .inr ⟨_, hasTerm_date d⟩
  | .call kind args, names, hdate, text, h => by
      obtain ⟨_, hcount, h⟩ := bind_eq_ok_iff.mp h
      obtain ⟨template, htemplate, h⟩ := bind_eq_ok_iff.mp h
      obtain ⟨texts, htexts, h⟩ := bind_eq_ok_iff.mp h
      cases h
      have htakes : kind.Takes texts.length := by
        rw [length_exprTexts htexts]
        exact FunctionKind.isOk_checkCount_iff.1 (isOk_iff.2 ⟨_, hcount⟩)
      obtain ⟨henclosed, -⟩ :=
        writes_exprTexts args (List.forall_mem_cons.1 names).2 htexts
      exact .inr (exists_hasTerm_call hdate htakes htemplate henclosed)
  | .cast e type width scale, names, _, text, h => by
      obtain ⟨inner, hinner, h⟩ := bind_eq_ok_iff.mp h
      obtain ⟨typeText, htype, h⟩ := bind_eq_ok_iff.mp h
      cases h
      obtain ⟨hshape, -⟩ :=
        writes_exprText e (List.forall_mem_cons.1 names).2 hinner
      exact .inr (exists_hasTerm_cast hshape.enclosed (enclosed_type htype))
  | .aliased e _, names, hdate, text, h =>
      word_or_term e (List.forall_mem_cons.1 names).2 hdate h

/-- What is written for an expression is one term if it has a date for its
value. -/
theorem exists_hasTerm_of_date {e : Expr} {text : String}
    (names : ∀ n ∈ e.nodes, n.hasIdentifiers = true)
    (dates : mayBeDate e = true)
    (written : Dialect.nuoDb.exprText e = .ok text)
    {row : List Lexeme → Option Value} {d : Date}
    (h : QuoteRule.escaped.value? row text = some (.date d)) :
    ∃ ls, HasTerm .escaped text ls := by
  rcases word_or_term e names dates written with hword | hterm
  · exact ⟨_, hasTerm_of_value? hword h⟩
  · exact hterm

/-! ### The months between two dates -/

/-- The months between two dates, as NuoDB computes them. From a date to one
that is not before it they are the most months that can be added to the first
one without going beyond the other. The other way round they are negative,
and between equal dates there are none. -/
theorem whole_months {later earlier : Expr}
    {laterText earlierText : String}
    (laterNames : ∀ n ∈ later.nodes, n.hasIdentifiers = true)
    (earlierNames : ∀ n ∈ earlier.nodes, n.hasIdentifiers = true)
    (laterDates : mayBeDate later = true)
    (earlierDates : mayBeDate earlier = true)
    (laterWritten : Dialect.nuoDb.exprText later = .ok laterText)
    (earlierWritten : Dialect.nuoDb.exprText earlier = .ok earlierText) :
    ∃ text swapped,
      Dialect.nuoDb.exprText (.call .monthsBetween [later, earlier]) =
        .ok text ∧
      Dialect.nuoDb.exprText (.call .monthsBetween [earlier, later]) =
        .ok swapped ∧
      ∀ (row : List Lexeme → Option Value) (last first : Date),
        QuoteRule.escaped.value? row laterText = some (.date last) →
        QuoteRule.escaped.value? row earlierText = some (.date first) →
        ∃ m : Int,
          QuoteRule.escaped.value? row text = some (.number m) ∧
          QuoteRule.escaped.value? row swapped = some (.number (-m)) ∧
          (first ≤ last → 0 ≤ m ∧
            IsGreatest {k : Int | first.addMonths k ≤ last} m) ∧
          (first = last → m = 0) := by
  have htext : ∀ {a b : Expr} {s t : String},
      Dialect.nuoDb.exprText a = .ok s →
      Dialect.nuoDb.exprText b = .ok t →
      Dialect.nuoDb.exprText (.call .monthsBetween [a, b]) =
        .ok (monthsBetween s t) := by
    intro a b s t ha hb
    simp only [Dialect.exprText, Dialect.exprTexts, ha, hb]
    rfl
  refine ⟨_, _, htext laterWritten earlierWritten,
    htext earlierWritten laterWritten, fun row last first hlast hfirst => ?_⟩
  obtain ⟨l, hl⟩ :=
    exists_hasTerm_of_date laterNames laterDates laterWritten hlast
  obtain ⟨e, he⟩ :=
    exists_hasTerm_of_date earlierNames earlierDates earlierWritten hfirst
  refine ⟨last.monthsBetween first, value?_monthsBetween hl he hlast hfirst,
    ?_, fun hle => ?_, ?_⟩
  · rw [← Date.monthsBetween_swap]
    exact value?_monthsBetween he hl hfirst hlast
  · exact ⟨Date.monthsBetween_nonneg hle,
      Date.isGreatest_monthsBetween hle⟩
  · rintro rfl
    exact Date.monthsBetween_self first

/-- The last day of February in a leap year. -/
def leapDay : Date := (Date.firstOf 2024 3 (by decide)).prev

/-- The last day of October. -/
def octoberEnd : Date := ⟨2023, 10, 31, by decide, by decide⟩

/-- A row with the last day of October in a column. -/
def sinceOctober : List Lexeme → Option Value
  | [.word "since"] => some (.date octoberEnd)
  | _ => none

/-- From the last day of October to the last day of February there are four
months, although February has no day 31. -/
theorem leap_day_reached :
    ∃ text swapped,
      Dialect.nuoDb.exprText (.call .monthsBetween
        [.literal (.date leapDay), .ofName "since"]) = .ok text ∧
      Dialect.nuoDb.exprText (.call .monthsBetween
        [.ofName "since", .literal (.date leapDay)]) = .ok swapped ∧
      QuoteRule.escaped.value? sinceOctober text = some (.number 4) ∧
      QuoteRule.escaped.value? sinceOctober swapped =
        some (.number (-4)) := by
  have hlater : Dialect.nuoDb.exprText (.literal (.date leapDay)) =
      .ok ("DATE('" ++ leapDay.text ++ "')") := rfl
  have hearlier : Dialect.nuoDb.exprText (.ofName "since") =
      .ok "since" := rfl
  obtain ⟨text, swapped, htext, hswapped, hvalues⟩ :=
    whole_months (by decide +kernel) (by decide +kernel) rfl rfl hlater
      hearlier
  obtain ⟨m, hm, hnegative, hgreatest, -⟩ :=
    hvalues sinceOctober leapDay octoberEnd (value?_date (by decide) _)
      (by decide +kernel)
  -- The day 31 is reached on the last day of February.
  have hle : octoberEnd ≤ leapDay := by decide +kernel
  have hcount : leapDay.monthsBetween octoberEnd = 4 := by decide +kernel
  have hfour := Date.isGreatest_monthsBetween hle
  rw [hcount] at hfour
  obtain rfl : m = 4 := IsGreatest.unique (hgreatest hle).2 hfour
  exact ⟨text, swapped, htext, hswapped, hm, hnegative⟩

end NuoDb

end SchemaEvolution

import SchemaEvolution.Proofs.Sql.ArithmeticText
import SchemaEvolution.Proofs.Sql.ClosedTexts
import SchemaEvolution.Proofs.Sql.SplicedStrings

/-!
# `SchemaEvolution.Proofs.Sql.NuoDbArithmetic`: arithmetic in NuoDB

NuoDB writes the operands of arithmetic as they are and casts the whole to
a number. No operand needs brackets that brings its own, and what NuoDB
writes does so: functions, casts, nested arithmetic and parts behind one
another are all closed. There are two exceptions. The days between two
dates are a difference of two casts without brackets, and no parts behind
one another are no text at all.

* `Shape.of`: which expressions are exceptions.
* `Shape.Writes.written_iff`: where the text of an expression may stand.
* `operands_whole`: what the operands of arithmetic are read as, wherever
  it stands in an expression.
-/

set_option autoImplicit false

namespace SchemaEvolution.NuoDb

open SchemaEvolution.Calendar
open SchemaEvolution.Sql
open SchemaEvolution.Text

/-! ### Constants -/

/-- The bars of a chain are marks between the lexemes of its terms. -/
theorem lexemesFrom_chainTokens (t u : Term) (rest : List Term) :
    lexemesFrom [] (chainTokens (t :: u :: rest)) =
      lexemesFrom [] t.tokens ++ [.mark '|', .mark '|'] ++
        lexemesFrom [] (chainTokens (u :: rest)) := by
  have hbars : ∀ ts, lexemesFrom [] (.code '|' :: .code '|' :: ts) =
      [.mark '|', .mark '|'] ++ lexemesFrom [] ts := fun _ => rfl
  have hcons : chainTokens (t :: u :: rest) =
      t.tokens ++ .code '|' :: .code '|' :: chainTokens (u :: rest) := by
    simp [chainTokens]
  rw [hcons, lexemesFrom_append, hbars, ← List.append_assoc]
  rintro c ⟨⟩
  decide

/-- A chain is closed: its terms are, and the bars between them are
marks. -/
theorem closed_chain {terms : List Term} (h : terms ≠ []) :
    Closed (lexemesFrom [] (chainTokens terms)) := by
  have hterm : ∀ t : Term, Closed (lexemesFrom [] t.tokens) := by
    intro t
    cases t with
    | string s => exact .literal _
    | trimmedBackslash => exact ⟨by decide, by decide⟩
  induction terms with
  | nil => exact absurd rfl h
  | cons t rest ih =>
      cases rest with
      | nil => simpa [chainTokens] using hterm t
      | cons u rest =>
          rw [lexemesFrom_chainTokens]
          exact (hterm t).join (by decide) (ih (List.cons_ne_nil u rest))

/-- A string is a chain of the terms that it is cut into. -/
theorem hasLexemes_string (s : String) :
    HasLexemes .escaped ("'" ++ escape s ++ "'")
      (lexemesFrom [] (chainTokens (terms [] s.toList))) := by
  have htext : ("'" ++ escape s ++ "'").toList =
      quote :: (splice s.toList ++ [quote]) := by
    simp [toList_escape, quote]
  have hread : lex .escaped .outside
      (quote :: (splice s.toList ++ [quote])) =
        some (chainTokens (terms [] s.toList)) := by
    have hsplice : lex .escaped (.inside [])
        (splice s.toList ++ [quote]) = _ :=
      lex_splice [] s.toList (by simp)
    rw [lex, if_pos rfl, hsplice]
    simp [lex]
  rw [HasLexemes, htext, QuoteRule.lexemes?, hread]
  rfl

/-- A string is closed, with all the backslashes that are spliced into
it. -/
theorem closed_string (s : String) :
    ClosedText .escaped ("'" ++ escape s ++ "'") :=
  ⟨_, hasLexemes_string s, closed_chain (terms_ne_nil _ _)⟩

/-- A date is the call of a function. -/
theorem closed_date (d : Date) :
    ClosedText .escaped ("DATE('" ++ d.text ++ "')") := by
  have htext : "DATE('" ++ d.text ++ "')" =
      "DATE(" ++ ("'" ++ d.text ++ "'") ++ ")" := by
    have hfront : "DATE('" = "DATE(" ++ "'" := by decide
    have hback : "')" = "'" ++ ")" := by decide
    rw [hfront, hback]
    simp only [String.append_assoc]
  have hquoted : Enclosed .escaped ("'" ++ d.text ++ "'") :=
    ⟨_, hasLexemes_quotedDate d, .literal _⟩
  have hcall := splices_fill "DATE(" [")"] ["'" ++ d.text ++ "'"] rfl
    (by decide) (by decide) (by simpa using hquoted)
  rw [htext]
  exact hcall.closed

/-- A decimal with a point is a string that is cast. -/
theorem closed_decimal (s : String) (precision scale : Nat) :
    ClosedText .escaped ("CAST ('" ++ escape s ++ "' AS DECIMAL(" ++
      toString precision ++ "," ++ toString scale ++ "))") := by
  have htext : "CAST ('" ++ escape s ++ "' AS DECIMAL(" ++
      toString precision ++ "," ++ toString scale ++ "))" =
        "CAST (" ++ ("'" ++ escape s ++ "'") ++ " AS DECIMAL(" ++
          toString precision ++ "," ++ toString scale ++ "))" := by
    have hfront : "CAST ('" = "CAST (" ++ "'" := by decide
    have hback : "' AS DECIMAL(" = "'" ++ " AS DECIMAL(" := by decide
    rw [hfront, hback]
    simp only [String.append_assoc]
  have hcast := splices_fill "CAST (" [" AS DECIMAL(", ",", "))"]
    ["'" ++ escape s ++ "'", toString precision, toString scale] rfl
    (by decide) (by decide)
    (by simpa using ⟨(closed_string s).enclosed, enclosed_nat _,
      enclosed_nat _⟩)
  rw [htext]
  exact hcast.closed

/-- A constant of NuoDB is one operand. -/
theorem whole_literal {l : Literal} {text : String}
    (h : Dialect.nuoDb.literalText l = .ok text) :
    WholeText .escaped text := by
  cases l with
  | null =>
      cases h
      exact (closed_constant (by decide)).whole
  | boolean b =>
      cases b with
      | true | false =>
          cases h
          exact (closed_constant (by decide)).whole
  | string s =>
      cases h
      exact (closed_string s).whole
  | integer i =>
      cases h
      exact ⟨_, hasLexemes_integer _, whole_integerLexemes _⟩
  | date d =>
      cases h
      exact (closed_date d).whole
  -- A decimal with a point goes into a cast; without one it is its own text.
  | decimal s =>
      change NuoDb.literal NuoDb.escape (.decimal s) = _ at h
      rw [NuoDb.literal] at h
      split at h
      · cases h
      · next n hn =>
          split at h
          · cases h
            exact whole_numeral (Numeral.isSpelled_iff.2
              ⟨n, Numeral.parse?_eq_some_iff.1 hn⟩)
          · cases h
            exact (closed_decimal s _ _).whole

/-! ### Calls -/

section Calls

/-- What stands behind the holes of the template for padding. -/
def leftPadBehind : List String :=
  [" - LENGTH(CAST(",
    " AS STRING)) > 0 THEN SUBSTRING(REPLACE('" ++ padding ++ "', ' ', ",
    "), 1, ", " - LENGTH(CAST(", " AS STRING))) || ", " ELSE SUBSTRING(",
    ", 1, ", ") END"]

/-- A string brought to a length, as a template. -/
theorem leftPad_eq_fill (value length character : String) :
    leftPad value length character =
      fill "CASE WHEN "
        [length, value, character, length, value, value, value, length]
        leftPadBehind := by
  have hback : " AS STRING))) || " = " AS STRING))" ++ ") || " := by decide
  have hmiddle : " AS STRING)) > 0 THEN SUBSTRING(REPLACE('" =
      " AS STRING))" ++ " > 0 THEN SUBSTRING(REPLACE('" := by
    decide
  rw [leftPadBehind, hback, hmiddle]
  unfold leftPad
  simp only [fill, String.append_assoc]

variable {args : List String}

/-- The templates of NuoDB are closed, all but those of the time between
two dates. -/
theorem splices_call {kind : FunctionKind}
    {template : List String → String} (hdays : kind ≠ .daysBetween)
    (hmonths : kind ≠ .monthsBetween) (hcount : kind.Takes args.length)
    (htemplate : NuoDb.call Dialect.nuoDb.name kind = .ok template)
    (hargs : ∀ a ∈ args, Enclosed .escaped a) :
    Splices .escaped (template args) args := by
  cases kind with
  | daysBetween => exact absurd rfl hdays
  | monthsBetween => exact absurd rfl hmonths
  | now =>
      cases htemplate
      obtain rfl := List.eq_nil_of_length_eq_zero
        (Option.some.inj hcount).symm
      have hclosed : ClosedText .escaped "CURRENT_TIMESTAMP()" :=
        closed_constant (by decide)
      exact ⟨hclosed, by simp⟩
  | addDays =>
      cases htemplate
      exact splices_binary (Option.some.inj hcount).symm "DATE_ADD("
        ", INTERVAL " " DAY)" (fun _ _ => rfl) (by decide) (by decide) hargs
  | addMonths =>
      cases htemplate
      exact splices_binary (Option.some.inj hcount).symm "DATE_ADD("
        ", INTERVAL " " MONTH)" (fun _ _ => rfl) (by decide) (by decide)
        hargs
  | yyyymmddToDate =>
      cases htemplate
      exact splices_unary (Option.some.inj hcount).symm "DATE_FROM_STR("
        ", 'yyyyMMdd')" [] (fun _ => rfl) (by decide) (by decide) hargs
  | dateToYyyymmdd =>
      cases htemplate
      exact splices_unary (Option.some.inj hcount).symm "CAST(DATE_TO_STR("
        ", 'yyyyMMdd') AS INT)" [] (fun _ => rfl) (by decide) (by decide)
        hargs
  | dateToYyyymmddHhmmss =>
      cases htemplate
      exact splices_unary (Option.some.inj hcount).symm "CAST(DATE_TO_STR("
        ", 'yyyyMMddHHmmss') AS BIGINT)" [] (fun _ => rfl) (by decide)
        (by decide) hargs
  -- The arguments are put into the formula eight times, in the order of its
  -- places.
  | leftPad =>
      cases htemplate
      obtain ⟨a, b, c, rfl⟩ := List.length_eq_three.1
        (Option.some.inj hcount).symm
      obtain ⟨ha, hb, hc⟩ : Enclosed .escaped a ∧ Enclosed .escaped b ∧
          Enclosed .escaped c := by
        simpa using hargs
      have hcall : Splices .escaped _ _ :=
        splices_fill "CASE WHEN " leftPadBehind [b, a, c, b, a, a, a, b] rfl
          (by decide +kernel) (by decide) (by simp [ha, hb, hc])
      rw [← leftPad_eq_fill] at hcall
      refine ⟨hcall.closed, fun t ht => hcall.contains t ?_⟩
      simp only [List.mem_cons, List.not_mem_nil, or_false] at ht
      rcases ht with rfl | rfl | rfl <;> simp
  | randomString =>
      cases htemplate
      exact splices_unary (Option.some.inj hcount).symm
        "SUBSTRING(CAST(RAND() AS STRING), 3, " ")" [] (fun _ => rfl)
        (by decide) (by decide) hargs
  | lastDayOfMonth =>
      cases htemplate
      exact splices_unary (Option.some.inj hcount).symm
        "DATE_SUB(DATE_ADD(DATE_SUB(" ", INTERVAL DAY("
        [")-1 DAY), INTERVAL 1 MONTH), INTERVAL 1 DAY)"] (fun _ => rfl)
        (by decide) (by decide) hargs
  | leftTrim | rightTrim =>
      cases htemplate
      exact splices_callText (by decide) (by decide) hargs
  -- All others are written as in standard SQL.
  | count | coalesce | isNull | sum | min | max | average | trim | length
  | upper | lower | floor | modulo | round | substring =>
      exact splices_ansi_call Dialect.nuoDb.name (by decide) hcount htemplate
        hargs

end Calls

/-! ### The time between two dates -/

section Between

variable {later earlier : String}

/-- What decides whether a month counts that has not ended. -/
def monthCorrection (later earlier : String) : String :=
  fill "CASE WHEN "
    [later, earlier, later, earlier, later, later, earlier, earlier, earlier,
      later]
    [" > ", " THEN CASE WHEN EXTRACT(DAY FROM ", ") >= EXTRACT(DAY FROM ",
      ") THEN 0 WHEN EXTRACT(MONTH FROM ", ") <> EXTRACT(MONTH FROM ",
      " + 1) THEN 0 ELSE -1 END ELSE CASE WHEN EXTRACT(MONTH FROM ",
      ") <> EXTRACT(MONTH FROM ", " + 1) THEN 0 WHEN EXTRACT(DAY FROM ",
      ") >= EXTRACT(DAY FROM ", ") THEN 0 ELSE 1 END END"]

/-- The months between two dates are twelve for each year, and one for each
month, corrected. -/
theorem monthsBetween_eq (later earlier : String) :
    monthsBetween later earlier =
      "(" ++ Operator.plus.between (Operator.plus.between
          (Operator.times.between
            ("(" ++ Operator.minus.between
              ("EXTRACT(YEAR FROM " ++ later ++ ")")
              ("EXTRACT(YEAR FROM " ++ earlier ++ ")") ++ ")") "12")
          ("(" ++ Operator.minus.between
            ("EXTRACT(MONTH FROM " ++ later ++ ")")
            ("EXTRACT(MONTH FROM " ++ earlier ++ ")") ++ ")"))
        (monthCorrection later earlier) ++ ")" := by
  -- The constant parts of the text are cut where an operator or a bracket
  -- stands.
  have hopening : "((EXTRACT(YEAR FROM " = "(" ++ "(" ++
      "EXTRACT(YEAR FROM " := by
    decide
  have hyears : ") - EXTRACT(YEAR FROM " = ")" ++ " " ++
      Operator.minus.symbol ++ " " ++ "EXTRACT(YEAR FROM " := by
    decide
  have htwelve : ")) * 12 + (EXTRACT(MONTH FROM " = ")" ++ ")" ++ " " ++
      Operator.times.symbol ++ " " ++ "12" ++ " " ++ Operator.plus.symbol ++
      " " ++ "(" ++ "EXTRACT(MONTH FROM " := by
    decide
  have hmonths : ") - EXTRACT(MONTH FROM " = ")" ++ " " ++
      Operator.minus.symbol ++ " " ++ "EXTRACT(MONTH FROM " := by
    decide
  have hcorrection : ")) + CASE WHEN " = ")" ++ ")" ++ " " ++
      Operator.plus.symbol ++ " " ++ "CASE WHEN " := by
    decide
  have hclosing : ") THEN 0 ELSE 1 END END)" =
      ") THEN 0 ELSE 1 END END" ++ ")" := by
    decide
  unfold monthsBetween monthCorrection
  rw [hopening, hyears, htwelve, hmonths, hcorrection, hclosing]
  simp only [fill, Operator.between, String.append_assoc]

/-- The months between two dates are a sum in brackets, which contains
both of them. -/
theorem written_monthsBetween (hlater : Enclosed .escaped later)
    (hearlier : Enclosed .escaped earlier) :
    (∃ tree, Written .escaped (monthsBetween later earlier) .primary tree) ∧
      ∀ t ∈ [later, earlier],
        Contains .escaped (monthsBetween later earlier) t := by
  -- The difference of the years and that of the months differ in the unit
  -- alone.
  have hpart : ∀ unit, isTemplate unit [")"] = true →
      startsOperand unit = true →
      ∃ tree, Written .escaped ("(" ++ Operator.minus.between
        (unit ++ later ++ ")") (unit ++ earlier ++ ")") ++ ")")
        .primary tree := by
    intro unit hunit hfirst
    have hclosed : ∀ date, Enclosed .escaped date →
        ClosedText .escaped (unit ++ date ++ ")") := fun date hdate =>
      (splices_fill unit [")"] [date] rfl hunit hfirst
        (by simpa using hdate)).closed
    obtain ⟨_, hl⟩ := Written.exists_of_closed (hclosed later hlater)
    obtain ⟨_, he⟩ := Written.exists_of_closed (hclosed earlier hearlier)
    obtain ⟨_, hdifference⟩ := hl.exists_splice he .minus
    exact ⟨_, hdifference.group⟩
  obtain ⟨_, hyears⟩ := hpart "EXTRACT(YEAR FROM " (by decide) (by decide)
  obtain ⟨_, hmonths⟩ := hpart "EXTRACT(MONTH FROM " (by decide) (by decide)
  have hconstant : ClosedText .escaped "12" := closed_constant (by decide)
  obtain ⟨_, htwelve⟩ := Written.exists_of_closed hconstant
  have hfill : Splices .escaped (monthCorrection later earlier) _ :=
    splices_fill _ _ _ rfl (by decide +kernel) (by decide)
      (by simp [hlater, hearlier])
  obtain ⟨_, hcorrection⟩ := Written.exists_of_closed hfill.closed
  obtain ⟨_, hproduct⟩ := hyears.exists_splice htwelve .times
  obtain ⟨_, hsum⟩ := hproduct.exists_splice hmonths .plus
  obtain ⟨_, hall⟩ := hsum.exists_splice hcorrection .plus
  -- Now the parts are joined as the formula has them.
  rw [monthsBetween_eq]
  refine ⟨⟨_, hall.group⟩, fun t ht => ?_⟩
  have hlast := hall.contains_group.trans
    (hsum.contains_join hcorrection .plus).2
  refine hlast.trans (hfill.contains t ?_)
  simp only [List.mem_cons, List.not_mem_nil, or_false] at ht
  rcases ht with rfl | rfl <;> simp

/-- The days between two dates are the difference of two casts. -/
theorem daysBetween_eq (later earlier : String) :
    "CAST(" ++ later ++ " AS DATE) - CAST(" ++ earlier ++ " AS DATE)" =
      Operator.minus.between ("CAST(" ++ later ++ " AS " ++ "DATE" ++ ")")
        ("CAST(" ++ earlier ++ " AS " ++ "DATE" ++ ")") := by
  have hmiddle : " AS DATE) - CAST(" = " AS " ++ "DATE" ++ ")" ++ " " ++
      Operator.minus.symbol ++ " " ++ "CAST(" := by
    decide
  have hback : " AS DATE)" = " AS " ++ "DATE" ++ ")" := by decide
  rw [hmiddle, hback]
  simp only [Operator.between, String.append_assoc]

end Between

/-! ### Shapes -/

/-- What the text of an expression is to an operator beside it. -/
inductive Shape where
  | whole
  | difference
  | empty
deriving DecidableEq

/-- The shape that an expression is written in. -/
def Shape.of : Expr → Shape
  | .aliased e _ => .of e
  | .call .daysBetween _ => .difference
  | .concat [] => .empty
  | _ => .whole

/-- Of all calls, only that of the days between two dates is written with an
operator outside of brackets. -/
theorem Shape.of_call {kind : FunctionKind} (h : kind ≠ .daysBetween)
    (args : List Expr) : Shape.of (.call kind args) = .whole := by
  cases kind with
  | daysBetween => exact absurd rfl h
  | _ => rfl

/-- The text is of the shape. -/
inductive Shape.Writes : Shape → String → Prop where
  | whole {s : String} {tree : Arithmetic (List Lexeme)} :
      Written .escaped s .primary tree → Writes .whole s
  | difference {s t : String} {left right : Arithmetic (List Lexeme)} :
      Written .escaped s .primary left → Written .escaped t .primary right →
      Writes .difference (Operator.minus.between s t)
  | empty : Writes .empty ""

namespace Shape.Writes

variable {shape : Shape} {text : String}

/-- Of whatever shape it is, a text may stand in a bracket. The empty one may
be an argument too. -/
theorem enclosed (h : shape.Writes text) : Enclosed .escaped text := by
  cases h with
  | whole h => exact h.enclosed
  | difference hs ht =>
      obtain ⟨_, hboth⟩ := hs.exists_splice ht .minus
      exact hboth.enclosed
  | empty => exact .empty

end Shape.Writes

/-! ### Expressions -/

/-- A binary operation has two operands. -/
theorem forall_mem_pair {p : String → Prop} {a b : String} :
    (∀ t ∈ [a, b], p t) ↔ p a ∧ p b := by
  simp

/-- The nodes are written in their shapes, and the text contains what is
written for them. -/
def HoldsAll (text : String) (nodes : List Expr) : Prop :=
  ∀ n ∈ nodes, ∃ part, Dialect.nuoDb.exprText n = .ok part ∧
    (Shape.of n).Writes part ∧ Contains .escaped text part

/-- What a text contains, a text around it contains as well. -/
theorem HoldsAll.within {outer text : String} {nodes : List Expr}
    (h : HoldsAll text nodes) (hcontains : Contains .escaped outer text) :
    HoldsAll outer nodes := by
  intro n hn
  obtain ⟨part, hpart, hshape, hcontained⟩ := h n hn
  exact ⟨part, hpart, hshape, hcontains.trans hcontained⟩

/-- An expression is one of its nodes. -/
theorem HoldsAll.cons {e : Expr} {text : String} {nodes : List Expr}
    (htext : Dialect.nuoDb.exprText e = .ok text)
    (hshape : (Shape.of e).Writes text) (h : HoldsAll text nodes) :
    (Shape.of e).Writes text ∧ HoldsAll text (e :: nodes) :=
  ⟨hshape, List.forall_mem_cons.2
    ⟨⟨text, htext, hshape, hshape.enclosed.contains_self⟩, h⟩⟩

/-- The call of a function is written in its shape, and contains its
arguments. -/
theorem writes_call {kind : FunctionKind} {texts : List String}
    {template : List String → String} (args : List Expr)
    (hcount : kind.Takes texts.length)
    (htemplate : NuoDb.call Dialect.nuoDb.name kind = .ok template)
    (htexts : ∀ t ∈ texts, Enclosed .escaped t) :
    (Shape.of (.call kind args)).Writes (template texts) ∧
      ∀ t ∈ texts, Contains .escaped (template texts) t := by
  -- The days between two dates are the one call that is a difference. Its
  -- two casts are primaries.
  by_cases hdays : kind = .daysBetween
  · subst hdays
    cases htemplate
    obtain ⟨a, b, rfl⟩ := List.length_eq_two.1 (Option.some.inj hcount).symm
    have hdate : Enclosed .escaped "DATE" :=
      (closed_constant (by decide)).enclosed
    have hcast : ∀ t ∈ [a, b], Splices .escaped
        ("CAST(" ++ t ++ " AS " ++ "DATE" ++ ")") [t, "DATE"] :=
      fun t ht => splices_cast (htexts t ht) hdate
    obtain ⟨ha, hb⟩ := forall_mem_pair.1 hcast
    obtain ⟨_, hleft⟩ := Written.exists_of_closed ha.closed
    obtain ⟨_, hright⟩ := Written.exists_of_closed hb.closed
    obtain ⟨hcontains, hcontains'⟩ := hleft.contains_join hright .minus
    show Shape.Writes .difference
        ("CAST(" ++ a ++ " AS DATE) - CAST(" ++ b ++ " AS DATE)") ∧
      ∀ t ∈ [a, b], Contains .escaped
        ("CAST(" ++ a ++ " AS DATE) - CAST(" ++ b ++ " AS DATE)") t
    rw [daysBetween_eq]
    refine ⟨.difference hleft hright, forall_mem_pair.2 ⟨?_, ?_⟩⟩
    · exact hcontains.trans (ha.contains a List.mem_cons_self)
    · exact hcontains'.trans (hb.contains b List.mem_cons_self)
  · rw [Shape.of_call hdays]
    -- The months between two dates are a sum, but in a bracket of their own.
    by_cases hmonths : kind = .monthsBetween
    · subst hmonths
      cases htemplate
      obtain ⟨a, b, rfl⟩ :=
        List.length_eq_two.1 (Option.some.inj hcount).symm
      obtain ⟨ha, hb⟩ := forall_mem_pair.1 htexts
      obtain ⟨⟨_, hwritten⟩, hcontains⟩ := written_monthsBetween ha hb
      exact ⟨.whole hwritten, hcontains⟩
    · have hcall := splices_call hdays hmonths hcount htemplate htexts
      obtain ⟨_, hwritten⟩ := Written.exists_of_closed hcall.closed
      exact ⟨.whole hwritten, hcall.contains⟩

/-- A type may stand in a bracket. -/
theorem enclosed_type {type : DataType} {width scale : UInt32}
    {text : String} (h : NuoDb.columnType type width scale = .ok text) :
    Enclosed .escaped text := by
  by_cases hclob : type = .clob
  · subst hclob
    cases h
    exact (closed_constant (by decide)).enclosed
  · have hansi : Ansi.columnType type width scale = .ok text := by
      cases type with
      | clob => exact absurd rfl hclob
      | _ => exact h
    exact enclosed_columnType hansi

/-- Arithmetic is closed, since it is cast to a number. -/
theorem splices_arithmetic (op : Operator) {l r : Operand}
    (hl : Enclosed .escaped l.text) (hr : Enclosed .escaped r.text) :
    Splices .escaped (NuoDb.arithmetic op l r) [l.text, r.text] := by
  have htext : NuoDb.arithmetic op l r = fill "CAST((" [l.text, r.text]
      [" " ++ op.symbol ++ " ", ") AS NUMBER)"] := by
    simp only [NuoDb.arithmetic, fill, String.append_assoc]
  rw [htext]
  exact splices_fill _ _ _ rfl (by cases op <;> decide) (by decide)
    (forall_mem_pair.2 ⟨hl, hr⟩)

/-- Parts behind one another are closed, if there are any. -/
theorem splices_concat {texts : List String} (hne : texts ≠ [])
    (htexts : ∀ t ∈ texts, Enclosed .escaped t) :
    Splices .escaped (NuoDb.concat texts) texts := by
  have hbars : lead? " || " = some [.mark '|', .mark '|'] := by decide
  have hpart : ∀ t ∈ texts,
      Splices .escaped ("COALESCE(" ++ t ++ ",'')") [t] := fun t ht =>
    splices_fill "COALESCE(" [",'')"] [t] rfl (by decide) (by decide)
      (by simpa using htexts t ht)
  have hclosed : ∀ p ∈ texts.map fun p => "COALESCE(" ++ p ++ ",'')",
      ClosedText .escaped p :=
    List.forall_mem_map.2 fun t ht => (hpart t ht).closed
  constructor
  · exact .intercalate hbars (by decide) (by decide) (by simpa using hne)
      hclosed
  · intro t ht
    have hcontains := contains_intercalate hbars (by decide) (by decide)
      (fun p hp => (hclosed p hp).enclosed) _ (List.mem_map_of_mem ht)
    exact hcontains.trans ((hpart t ht).contains t List.mem_cons_self)

mutual

/-- An expression is written in its shape, and what is written for its
nodes is a part of that. -/
theorem writes_exprText : ∀ e : Expr,
    (∀ n ∈ e.nodes, n.hasIdentifiers = true) → ∀ {text : String},
    Dialect.nuoDb.exprText e = .ok text →
    (Shape.of e).Writes text ∧ HoldsAll text e.nodes
  | .field f, names, text, h => by
      have hfield : ClosedText .escaped f.text :=
        ⟨_, hasLexemes_field (names _ List.mem_cons_self), .word _⟩
      obtain ⟨_, hwritten⟩ := Written.exists_of_closed hfield
      obtain rfl : f.text = text := Except.ok.inj h
      exact HoldsAll.cons h (.whole hwritten) (by simp [HoldsAll])
  | .literal l, _, text, h => by
      obtain ⟨_, hwritten⟩ := Written.exists_of_whole (whole_literal h)
      exact HoldsAll.cons h (.whole hwritten) (by simp [HoldsAll])
  -- A call holds what its arguments hold, as its text contains theirs.
  | .call kind args, names, text, h => by
      have htext := h
      obtain ⟨_, hcount, h⟩ := bind_eq_ok_iff.mp h
      obtain ⟨template, htemplate, h⟩ := bind_eq_ok_iff.mp h
      obtain ⟨texts, htexts, h⟩ := bind_eq_ok_iff.mp h
      cases h
      have htakes : kind.Takes texts.length := by
        rw [length_exprTexts htexts]
        exact FunctionKind.isOk_checkCount_iff.1 (isOk_iff.2 ⟨_, hcount⟩)
      obtain ⟨henclosed, hholds⟩ :=
        writes_exprTexts args (List.forall_mem_cons.1 names).2 htexts
      obtain ⟨hshape, hcontains⟩ :=
        writes_call args htakes htemplate henclosed
      exact HoldsAll.cons htext hshape (hholds _ hcontains)
  | .cast e type width scale, names, text, h => by
      have htext := h
      obtain ⟨inner, hinner, h⟩ := bind_eq_ok_iff.mp h
      obtain ⟨typeText, htype, h⟩ := bind_eq_ok_iff.mp h
      cases h
      obtain ⟨hshape, hholds⟩ :=
        writes_exprText e (List.forall_mem_cons.1 names).2 hinner
      have hcast := splices_cast hshape.enclosed (enclosed_type htype)
      obtain ⟨_, hwritten⟩ := Written.exists_of_closed hcast.closed
      exact HoldsAll.cons htext (.whole hwritten)
        (hholds.within (hcast.contains _ List.mem_cons_self))
  -- An operation is written in a cast, so it is whole whatever its operands
  -- are.
  | .arithmetic op l r, names, text, h => by
      have htext := h
      obtain ⟨ltext, hltext, h⟩ := bind_eq_ok_iff.mp h
      obtain ⟨rtext, hrtext, h⟩ := bind_eq_ok_iff.mp h
      cases h
      obtain ⟨hlnames, hrnames⟩ :=
        List.forall_mem_append.1 (List.forall_mem_cons.1 names).2
      obtain ⟨hl, hlholds⟩ := writes_exprText l hlnames hltext
      obtain ⟨hr, hrholds⟩ := writes_exprText r hrnames hrtext
      have hall : Splices .escaped (NuoDb.arithmetic op
          ⟨ltext, l.isArithmetic⟩ ⟨rtext, r.isArithmetic⟩) [ltext, rtext] :=
        splices_arithmetic op hl.enclosed hr.enclosed
      obtain ⟨_, hwritten⟩ := Written.exists_of_closed hall.closed
      obtain ⟨hcontains, hcontains'⟩ := forall_mem_pair.1 hall.contains
      exact HoldsAll.cons htext (.whole hwritten) (List.forall_mem_append.2
        ⟨hlholds.within hcontains, hrholds.within hcontains'⟩)
  | .concat parts, names, text, h => by
      have htext := h
      obtain ⟨texts, htexts, h⟩ := bind_eq_ok_iff.mp h
      cases h
      obtain ⟨henclosed, hholds⟩ :=
        writes_exprTexts parts (List.forall_mem_cons.1 names).2 htexts
      cases parts with
      | nil =>
          cases htexts
          exact HoldsAll.cons htext .empty (by simp [HoldsAll, Expr.nodesList])
      -- Of a concatenation that is not empty, every part is in the text.
      | cons part parts =>
          have hne : texts ≠ [] := by
            rintro rfl
            cases length_exprTexts htexts
          have hall := splices_concat hne henclosed
          obtain ⟨_, hwritten⟩ := Written.exists_of_closed hall.closed
          exact HoldsAll.cons htext (.whole hwritten) (hholds _ hall.contains)
  | .aliased e _, names, text, h => by
      obtain ⟨hshape, hholds⟩ :=
        writes_exprText e (List.forall_mem_cons.1 names).2 h
      exact HoldsAll.cons h hshape hholds

/-- What is written for the nodes of expressions is a part of any text that
contains what is written for the expressions. -/
theorem writes_exprTexts : ∀ es : List Expr,
    (∀ n ∈ Expr.nodesList es, n.hasIdentifiers = true) →
    ∀ {texts : List String}, Dialect.nuoDb.exprTexts es = .ok texts →
    (∀ t ∈ texts, Enclosed .escaped t) ∧
      ∀ outer, (∀ t ∈ texts, Contains .escaped outer t) →
        HoldsAll outer (Expr.nodesList es)
  | [], _, texts, h => by
      cases h
      simp [HoldsAll, Expr.nodesList]
  | e :: rest, names, texts, h => by
      obtain ⟨text, htext, h⟩ := bind_eq_ok_iff.mp h
      obtain ⟨others, hothers, h⟩ := bind_eq_ok_iff.mp h
      cases h
      obtain ⟨hname, hnames⟩ := List.forall_mem_append.1 names
      obtain ⟨hshape, hholds⟩ := writes_exprText e hname htext
      obtain ⟨henclosed, hrest⟩ := writes_exprTexts rest hnames hothers
      refine ⟨List.forall_mem_cons.2 ⟨hshape.enclosed, henclosed⟩,
        fun outer houter => ?_⟩
      obtain ⟨hcontains, hcontains'⟩ := List.forall_mem_cons.1 houter
      exact List.forall_mem_append.2
        ⟨hholds.within hcontains, hrest outer hcontains'⟩

end

/-! ### Operands -/

mutual

/-- The nodes of a node are nodes. -/
theorem nodes_subset : ∀ e : Expr, ∀ n ∈ e.nodes, n.nodes ⊆ e.nodes
  | .field _, n, hn | .literal _, n, hn => by
      obtain rfl := List.mem_singleton.1 hn
      exact List.Subset.refl _
  | .call _ args, n, hn | .concat args, n, hn => by
      rcases List.mem_cons.1 hn with rfl | hn
      · exact List.Subset.refl _
      · exact List.subset_cons_of_subset _ (nodesList_subset args n hn)
  | .cast e _ _ _, n, hn | .aliased e _, n, hn => by
      rcases List.mem_cons.1 hn with rfl | hn
      · exact List.Subset.refl _
      · exact List.subset_cons_of_subset _ (nodes_subset e n hn)
  | .arithmetic _ l r, n, hn => by
      rcases List.mem_cons.1 hn with rfl | hn
      · exact List.Subset.refl _
      · refine List.subset_cons_of_subset _ ?_
        rcases List.mem_append.1 hn with hn | hn
        · exact List.subset_append_of_subset_left _ (nodes_subset l n hn)
        · exact List.subset_append_of_subset_right _ (nodes_subset r n hn)

/-- The nodes below a node of some expressions are among their nodes. -/
theorem nodesList_subset : ∀ es : List Expr, ∀ n ∈ Expr.nodesList es,
    n.nodes ⊆ Expr.nodesList es
  | [], _, hn => nomatch hn
  | e :: rest, n, hn => by
      rcases List.mem_append.1 hn with hn | hn
      · exact List.subset_append_of_subset_left _ (nodes_subset e n hn)
      · exact List.subset_append_of_subset_right _
          (nodesList_subset rest n hn)

end

end SchemaEvolution.NuoDb

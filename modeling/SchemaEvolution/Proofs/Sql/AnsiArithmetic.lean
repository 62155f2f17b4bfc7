import SchemaEvolution.Proofs.Sql.ArithmeticText
import SchemaEvolution.Proofs.Sql.ClosedTexts

/-!
# `SchemaEvolution.Proofs.Sql.AnsiArithmetic`: arithmetic in standard SQL

Standard SQL brackets an operand that is arithmetic itself, also behind
aliases, so that the text of an operation is read as that operation. The
functions on dates do not do so: their arguments go into the holes of
their templates as they are, beside operators of the template. That is
right for all arguments but one kind, a second argument that is a sum or a
difference.

* `Expr.exists_written`: what is written stands at a level of the grammar,
  and is a primary unless it is arithmetic.
* `Expr.arithmetic_survives`: arithmetic over fields and integers is read
  back as the same tree.
* `Expr.whole_dates`: which arguments the functions on dates apply to as a
  whole.
-/

set_option autoImplicit false

namespace SchemaEvolution

open SchemaEvolution.Sql
open SchemaEvolution.Text

/-! ### Levels -/

/-- The level of what standard SQL writes for an expression. -/
def Expr.level : Expr → Level
  | .aliased e _ => e.level
  | .arithmetic op _ _ => op.level
  | _ => .primary

/-- What is not arithmetic is a primary. -/
theorem Expr.level_eq_primary {e : Expr} (h : e.isArithmetic = false) :
    e.level = .primary := by
  fun_induction Expr.level e with
  | case1 e _ ih => exact ih h
  | case2 => cases h
  | case3 => rfl

variable {q : QuoteRule} {tree left right : Arithmetic (List Lexeme)}

/-- An operand is a primary, since it is in brackets if it is
arithmetic. -/
theorem Sql.Written.bracketed {e : Expr} {text : String}
    (h : Written q text e.level tree) :
    Written q (Ansi.bracketed ⟨text, e.isArithmetic⟩) .primary tree := by
  cases he : e.isArithmetic with
  | true => exact h.group
  | false =>
      rw [Expr.level_eq_primary he] at h
      exact h

/-- Arithmetic is at the level of its operator. -/
theorem Sql.Written.arithmetic {l r : Expr} {ltext rtext : String}
    (op : Operator) (hl : Written q ltext l.level left)
    (hr : Written q rtext r.level right) :
    Written q (Ansi.arithmetic op ⟨ltext, l.isArithmetic⟩
      ⟨rtext, r.isArithmetic⟩) op.level (.operation op left right) :=
  hl.bracketed.ofPrimary.join hr.bracketed.ofPrimary

/-! ### The length of a day -/

/-- The day that is added so many times. -/
def dayLexemes : List Lexeme :=
  [.word "INTERVAL", .literal "1", .word "DAY"]

theorem written_day :
    Written q "INTERVAL '1' DAY" .primary (.operand dayLexemes) := by
  have hconstant : constant? "INTERVAL '1' DAY".toList = some dayLexemes := by
    decide
  exact .operand (lexemes?_of_constant? hconstant)
    (.closed ⟨by decide, by decide⟩)

/-- What is written for a date with days added to it. -/
theorem addDays_eq (date days : String) :
    "(" ++ date ++ " + " ++ days ++ " * INTERVAL '1' DAY)" =
      "(" ++ Operator.plus.between date
        (Operator.times.between days "INTERVAL '1' DAY") ++ ")" := by
  have hplus : " + " = " " ++ Operator.plus.symbol ++ " " := by decide
  have htimes : " * INTERVAL '1' DAY)" =
      " " ++ Operator.times.symbol ++ " " ++ "INTERVAL '1' DAY" ++ ")" := by
    decide
  rw [hplus, htimes]
  simp only [Operator.between, String.append_assoc]

/-- What is written for the days between two dates. -/
theorem daysBetween_eq (later earlier : String) :
    "EXTRACT(DAY FROM (" ++ later ++ " - " ++ earlier ++ "))" =
      "EXTRACT(DAY FROM " ++
        ("(" ++ Operator.minus.between later earlier ++ ")") ++ ")" := by
  have hfront : "EXTRACT(DAY FROM (" = "EXTRACT(DAY FROM " ++ "(" := by
    decide
  have hminus : " - " = " " ++ Operator.minus.symbol ++ " " := by decide
  have hback : "))" = ")" ++ ")" := by decide
  rw [hfront, hminus, hback]
  simp only [Operator.between, String.append_assoc]

/-! ### Expressions -/

/-- A string is one literal. -/
theorem hasLexemes_ansi_string (s : String) :
    HasLexemes .doubled ("'" ++ Ansi.escape s ++ "'") [.literal s] := by
  have hspaced : WellSpaced [.literal s] := ⟨by simp, .singleton _⟩
  have htext : ("'" ++ Ansi.escape s ++ "'").toList =
      [Token.literal s].flatMap Token.text := by
    simp [Token.text, quote]
  rw [HasLexemes, htext, QuoteRule.lexemes?, lex_text hspaced]
  rfl

/-- A constant of standard SQL is one operand. -/
theorem whole_ansi_literal {l : Literal} {text : String}
    (h : Dialect.ansi.literalText l = .ok text) :
    WholeText .doubled text := by
  obtain ⟨_, hvalid, h⟩ := bind_eq_ok_iff.mp h
  cases h
  cases l with
  | null => exact (closed_constant (by decide)).whole
  | boolean b =>
      cases b with
      | true => exact (closed_constant (by decide)).whole
      | false => exact (closed_constant (by decide)).whole
  | string s => exact ⟨_, hasLexemes_ansi_string s, .closed (.literal s)⟩
  | integer i => exact ⟨_, hasLexemes_integer _, whole_integerLexemes _⟩
  | decimal text =>
      exact whole_numeral (Numeral.isNumeral_iff.1
        ((Literal.validate_decimal_iff text).mp hvalid))
  | date d =>
      have hlead : lead? "DATE " = some [.word "DATE"] := by decide
      have htext : "DATE '" ++ d.text ++ "'" =
          "DATE " ++ ("'" ++ d.text ++ "'") := by
        rw [← String.append_assoc, ← String.append_assoc]
        rfl
      refine ⟨[.word "DATE", .literal d.text], ?_, .closed ⟨rfl, rfl⟩⟩
      show HasLexemes .doubled ("DATE '" ++ d.text ++ "'") _
      rw [htext]
      exact Leads.of_lead? hlead (hasLexemes_quotedDate d)

/-- A call of standard SQL is a primary. -/
theorem written_ansi_call {kind : FunctionKind} {args : List String}
    {template : List String → String} (hcount : kind.Takes args.length)
    (htemplate : Ansi.call Dialect.ansi.name kind = .ok template)
    (hargs : ∀ a ∈ args, ∃ level tree, Written .doubled a level tree) :
    ∃ tree, Written .doubled (template args) .primary tree := by
  by_cases hkind : kind = .addDays
  · -- Whatever the operators of the template apply to, the brackets keep
    -- it together.
    subst hkind
    cases htemplate
    obtain ⟨a, b, rfl⟩ := List.length_eq_two.1 (Option.some.inj hcount).symm
    obtain ⟨_, _, ha⟩ := hargs a (by simp)
    obtain ⟨_, _, hb⟩ := hargs b (by simp)
    obtain ⟨_, hproduct⟩ := hb.exists_splice written_day .times
    obtain ⟨tree, hsum⟩ := ha.exists_splice hproduct .plus
    refine ⟨tree, ?_⟩
    show Written .doubled
      ("(" ++ a ++ " + " ++ b ++ " * INTERVAL '1' DAY)") .primary tree
    rw [addDays_eq]
    exact hsum.group
  · have henclosed : ∀ a ∈ args, Enclosed .doubled a := fun a ha =>
      let ⟨_, _, hwritten⟩ := hargs a ha
      hwritten.enclosed
    exact Written.exists_of_closed
      (splices_ansi_call _ hkind hcount htemplate henclosed).closed

mutual

/-- What standard SQL writes for an expression stands at the level of the
expression. -/
theorem Expr.exists_written : ∀ e : Expr,
    (∀ n ∈ e.nodes, n.hasIdentifiers = true) → ∀ {text : String},
    Dialect.ansi.exprText e = .ok text →
    ∃ tree, Written .doubled text e.level tree
  | .field f, names, text, h => by
      cases h
      exact ⟨_, .operand (hasLexemes_field (names _ List.mem_cons_self))
        (.closed (.word _))⟩
  | .literal _, _, text, h => Written.exists_of_whole (whole_ansi_literal h)
  -- The arguments of a call stand in its brackets, whatever levels they are
  -- at.
  | .call kind args, names, text, h => by
      obtain ⟨_, hcount, h⟩ := bind_eq_ok_iff.mp h
      obtain ⟨template, htemplate, h⟩ := bind_eq_ok_iff.mp h
      obtain ⟨texts, htexts, h⟩ := bind_eq_ok_iff.mp h
      cases h
      have htakes : kind.Takes texts.length := by
        rw [length_exprTexts htexts]
        exact FunctionKind.isOk_checkCount_iff.1 (isOk_iff.2 ⟨_, hcount⟩)
      exact written_ansi_call htakes htemplate
        (Expr.exists_writtens args (List.forall_mem_cons.1 names).2 htexts)
  | .cast e type width scale, names, text, h => by
      obtain ⟨inner, hinner, h⟩ := bind_eq_ok_iff.mp h
      obtain ⟨typeText, htype, h⟩ := bind_eq_ok_iff.mp h
      cases h
      obtain ⟨_, hwritten⟩ :=
        Expr.exists_written e (List.forall_mem_cons.1 names).2 hinner
      exact Written.exists_of_closed
        (splices_cast hwritten.enclosed (enclosed_columnType htype)).closed
  -- The operands of an operation are the only parts whose levels count.
  | .arithmetic op l r, names, text, h => by
      obtain ⟨ltext, hltext, h⟩ := bind_eq_ok_iff.mp h
      obtain ⟨rtext, hrtext, h⟩ := bind_eq_ok_iff.mp h
      cases h
      obtain ⟨hlnames, hrnames⟩ :=
        List.forall_mem_append.1 (List.forall_mem_cons.1 names).2
      obtain ⟨_, hl⟩ := Expr.exists_written l hlnames hltext
      obtain ⟨_, hr⟩ := Expr.exists_written r hrnames hrtext
      exact ⟨_, hl.arithmetic op hr⟩
  | .concat parts, names, text, h => by
      obtain ⟨texts, htexts, h⟩ := bind_eq_ok_iff.mp h
      cases h
      have hargs := Expr.exists_writtens parts
        (List.forall_mem_cons.1 names).2 htexts
      have hcall : Splices .doubled (callText "CONCAT" texts) texts :=
        splices_callText (by decide) (by decide) fun a ha =>
          let ⟨_, _, hwritten⟩ := hargs a ha
          hwritten.enclosed
      exact Written.exists_of_closed hcall.closed
  | .aliased e _, names, text, h =>
      Expr.exists_written e (List.forall_mem_cons.1 names).2 h

/-- So do the texts of several expressions. -/
theorem Expr.exists_writtens : ∀ es : List Expr,
    (∀ n ∈ Expr.nodesList es, n.hasIdentifiers = true) →
    ∀ {texts : List String}, Dialect.ansi.exprTexts es = .ok texts →
    ∀ t ∈ texts, ∃ level tree, Written .doubled t level tree
  | [], _, texts, h => by
      cases h
      simp
  | e :: rest, names, texts, h => by
      obtain ⟨text, htext, h⟩ := bind_eq_ok_iff.mp h
      obtain ⟨others, hothers, h⟩ := bind_eq_ok_iff.mp h
      cases h
      obtain ⟨hname, hnames⟩ := List.forall_mem_append.1 names
      obtain ⟨tree, hwritten⟩ := Expr.exists_written e hname htext
      exact List.forall_mem_cons.2 ⟨⟨_, tree, hwritten⟩,
        Expr.exists_writtens rest hnames hothers⟩

end

/-! ### Arithmetic over fields and integers -/

/-- A field, by its name, or an integer. -/
inductive Atom where
  | name (s : String)
  | number (i : Int)
deriving DecidableEq

/-- The number that digits are. -/
def naturalNumber? (s : String) : Option Nat :=
  if s.toList.all Char.isDigit then some (digitsValue s.toList) else none

/-- The field or integer that the lexemes of an operand are. -/
def Atom.ofLexemes? : List Lexeme → Option Atom
  | [.word w] =>
      if isNumber w then
        (naturalNumber? w).map fun (n : Nat) => .number n
      else some (.name w)
  | [.operator .minus, .word w] =>
      (naturalNumber? w).map fun (n : Nat) => .number (-n)
  | _ => none

/-- The arithmetic over fields and integers that a text of standard SQL is
read as. -/
def integerArithmetic? (s : String) : Option (Arithmetic Atom) := do
  let tree ← arithmetic? .doubled s
  tree.mapM? Atom.ofLexemes?

/-- The arithmetic over fields and integers that an expression is, without
its aliases. -/
def Expr.integerArithmetic? : Expr → Option (Arithmetic Atom)
  | .field f => some (.operand (.name f.text))
  | .literal (.integer i) => some (.operand (.number i.toInt))
  | .arithmetic op left right => do
      let left ← left.integerArithmetic?
      let right ← right.integerArithmetic?
      return .operation op left right
  | .aliased e _ => e.integerArithmetic?
  | _ => none

/-- A name is not taken for a number. -/
theorem isNumber_of_isIdentifier {s : String} (h : isIdentifier s = true) :
    isNumber s = false := by
  unfold isIdentifier at h
  split at h
  · cases h
  · next c cs hs =>
      rw [Bool.and_eq_true, Bool.and_eq_true] at h
      simpa [isNumber, hs] using h.1.1

theorem isNumber_field {f : FieldRef} (h : f.hasIdentifiers = true) :
    isNumber f.text = false := by
  obtain ⟨table, name⟩ := f
  obtain ⟨hname, htable⟩ := Bool.and_eq_true_iff.1 h
  cases table with
  | none => exact isNumber_of_isIdentifier hname
  | some t =>
      -- The first character is that of the qualifier.
      have hfirst := isNumber_of_isIdentifier htable
      obtain ⟨c, cs, hcs⟩ := List.exists_cons_of_ne_nil
        (word_of_isIdentifier htable).1
      simpa [isNumber, FieldRef.text, hcs] using hfirst

theorem naturalNumber?_toString (n : Nat) :
    naturalNumber? (toString n) = some n := by
  have hdigits : (toString n).toList = Nat.toDigits 10 n := by
    rw [Nat.toString_eq_ofList_toDigits, String.toList_ofList]
  rw [naturalNumber?, hdigits, if_pos, digitsValue_toDigits]
  exact List.all_eq_true.2 fun c hc => isDigit_of_mem_toDigits hc

/-- The lexemes of an integer stand for it. -/
theorem Atom.ofLexemes?_integerLexemes (i : Int) :
    Atom.ofLexemes? (integerLexemes i) = some (.number i) := by
  cases i with
  | ofNat n =>
      have hnumber := (hasLexemes_nat (q := .doubled) n).1
      rw [integerLexemes, Atom.ofLexemes?, if_pos hnumber,
        naturalNumber?_toString]
      rfl
  | negSucc n =>
      rw [integerLexemes, Atom.ofLexemes?, naturalNumber?_toString]
      rfl

/-- What is written for arithmetic over fields and integers, and what it is
read as. -/
theorem Expr.exists_integerArithmetic : ∀ e : Expr,
    (∀ n ∈ e.nodes, n.hasIdentifiers = true) → ∀ {tree : Arithmetic Atom},
    e.integerArithmetic? = some tree →
    ∃ text lexemes, Dialect.ansi.exprText e = .ok text ∧
      Written .doubled text e.level lexemes ∧
      lexemes.mapM? Atom.ofLexemes? = some tree
  | .field f, names, tree, h => by
      have hf : f.hasIdentifiers = true := names _ List.mem_cons_self
      cases h
      refine ⟨_, _, rfl, .operand (hasLexemes_field hf) (.closed (.word _)),
        ?_⟩
      simp [Arithmetic.mapM?, Atom.ofLexemes?, isNumber_field hf]
  | .literal (.integer i), _, tree, h => by
      cases h
      refine ⟨_, _, rfl, .operand (hasLexemes_integer _)
        (whole_integerLexemes _), ?_⟩
      simp [Arithmetic.mapM?, Atom.ofLexemes?_integerLexemes]
  -- Operations are read as such from what their operands are read as.
  | .arithmetic op l r, names, tree, h => by
      obtain ⟨left, hleft, h⟩ := Option.bind_eq_some_iff.1 h
      obtain ⟨right, hright, h⟩ := Option.bind_eq_some_iff.1 h
      cases h
      obtain ⟨hlnames, hrnames⟩ :=
        List.forall_mem_append.1 (List.forall_mem_cons.1 names).2
      obtain ⟨ltext, ltree, hltext, hl, hlread⟩ :=
        Expr.exists_integerArithmetic l hlnames hleft
      obtain ⟨rtext, rtree, hrtext, hr, hrread⟩ :=
        Expr.exists_integerArithmetic r hrnames hright
      refine ⟨_, _, ?_, hl.arithmetic op hr, ?_⟩
      · rw [Dialect.exprText, hltext, hrtext]
        rfl
      · simp [Arithmetic.mapM?, hlread, hrread]
  | .aliased e _, names, tree, h =>
      Expr.exists_integerArithmetic e (List.forall_mem_cons.1 names).2 h
  -- Nothing else is integer arithmetic.
  | .literal .null, _, _, h | .literal (.string _), _, _, h
  | .literal (.decimal _), _, _, h | .literal (.boolean _), _, _, h
  | .literal (.date _), _, _, h | .call _ _, _, _, h
  | .cast _ _ _ _, _, _, h | .concat _, _, _, h => nomatch h

/-- Arithmetic survives being written in standard SQL. An expression of
fields with identifiers for names, integers and the four operations, nested
to any depth and with aliases around any part of it, can be written, and
its text is read by precedence as the same operations over the same fields
and integers. -/
theorem Expr.arithmetic_survives {e : Expr} {tree : Arithmetic Atom}
    (names : ∀ n ∈ e.nodes, n.hasIdentifiers = true)
    (built : e.integerArithmetic? = some tree) :
    ∃ text, Dialect.ansi.exprText e = .ok text ∧
      SchemaEvolution.integerArithmetic? text = some tree := by
  obtain ⟨text, lexemes, htext, hwritten, hread⟩ :=
    Expr.exists_integerArithmetic e names built
  refine ⟨text, htext, ?_⟩
  rw [SchemaEvolution.integerArithmetic?, hwritten.arithmetic?_eq]
  exact hread

/-- A margin over costs, with an alias around a part of it and two around
the whole. -/
def margin : Expr :=
  .aliased (.aliased (.arithmetic .divide
    (.arithmetic .minus (.field ⟨some { name := "sale" }, "price"⟩)
      (.arithmetic .minus (.ofName "cost") (.literal (.integer (-3)))))
    (.aliased (.arithmetic .times (.ofName "cost")
      (.arithmetic .plus (.ofName "rate") (.literal (.integer 1)))) "base"))
    "share") "margin"

example : Dialect.ansi.exprText margin =
    .ok "(sale.price - (cost - -3)) / (cost * (rate + 1))" := by
  decide +kernel

/-- The margin is read back without its aliases. -/
theorem margin_survives :
    ∃ text, Dialect.ansi.exprText margin = .ok text ∧
      integerArithmetic? text =
        some (.operation .divide
          (.operation .minus (.operand (.name "sale.price"))
            (.operation .minus (.operand (.name "cost"))
              (.operand (.number (-3)))))
          (.operation .times (.operand (.name "cost"))
            (.operation .plus (.operand (.name "rate"))
              (.operand (.number 1))))) :=
  Expr.arithmetic_survives (by decide +kernel) (by decide +kernel)

/-! ### Dates -/

/-- A sum or a difference has its operator outside of brackets. -/
theorem Expr.outerOperators?_of_level {e : Expr}
    (names : ∀ n ∈ e.nodes, n.hasIdentifiers = true) {text : String}
    (h : Dialect.ansi.exprText e = .ok text) (hlevel : e.level = .sum) :
    ∃ op, op.level = .sum ∧ outerOperators? .doubled text = some [op] := by
  fun_induction Expr.level e with
  | case1 e _ ih => exact ih (List.forall_mem_cons.1 names).2 h hlevel
  | case2 op l r =>
      obtain ⟨ltext, hltext, h⟩ := bind_eq_ok_iff.mp h
      obtain ⟨rtext, hrtext, h⟩ := bind_eq_ok_iff.mp h
      cases h
      obtain ⟨hlnames, hrnames⟩ :=
        List.forall_mem_append.1 (List.forall_mem_cons.1 names).2
      obtain ⟨_, hl⟩ := l.exists_written hlnames hltext
      obtain ⟨_, hr⟩ := r.exists_written hrnames hrtext
      exact ⟨op, hlevel, hl.bracketed.outerOperators?_join hr.bracketed op⟩
  | case3 => cases hlevel

/-- Where a product is to stand, everything may stand but a sum or a
difference. -/
theorem Expr.written_product_iff {e : Expr}
    (names : ∀ n ∈ e.nodes, n.hasIdentifiers = true) {text : String}
    (h : Dialect.ansi.exprText e = .ok text)
    (hwritten : Written .doubled text e.level tree) :
    Written .doubled text .product tree ↔ e.level ≠ .sum := by
  constructor
  · intro hproduct hlevel
    obtain ⟨op, hop, houter⟩ := e.outerOperators?_of_level names h hlevel
    have hadmits : op.level = .product :=
      hproduct.admits houter op List.mem_cons_self
    exact absurd (hop.symm.trans hadmits) (by decide)
  · intro hlevel
    cases he : e.level with
    | primary => exact (he ▸ hwritten).ofPrimary
    | product => exact he ▸ hwritten
    | sum => exact absurd he hlevel

/-- When the days that are added are as many as a text says. -/
theorem Sql.Written.addDays_iff {a b : String} {alevel blevel : Level}
    (ha : Written q a alevel left) (hb : Written q b blevel right) :
    arithmetic? q ("(" ++ a ++ " + " ++ b ++ " * INTERVAL '1' DAY)") =
        some (.operation .plus left
          (.operation .times right (.operand dayLexemes))) ↔
      Written q b .product right := by
  obtain ⟨_, hdays⟩ := hb.exists_splice written_day .times
  obtain ⟨_, hsum⟩ := ha.exists_splice hdays .plus
  rw [addDays_eq, hsum.arithmetic?_group, ha.arithmetic?_splice_iff hdays]
  constructor
  · rintro ⟨-, hproduct⟩
    exact ((hb.arithmetic?_splice_iff written_day).1
      hproduct.arithmetic?_eq).1
  · intro hproduct
    have hleft : Written q b Operator.times.level right := hproduct
    exact ⟨ha.sum, hleft.join written_day⟩

/-- The functions on dates apply to the whole of their arguments exactly
when the second one is no sum and no difference. Days are then added as
many times as the second argument says, and the days between two dates are
taken from the difference of the two. -/
theorem Expr.whole_dates {a b : Expr} {atext btext : String}
    (anames : ∀ n ∈ a.nodes, n.hasIdentifiers = true)
    (bnames : ∀ n ∈ b.nodes, n.hasIdentifiers = true)
    (ha : Dialect.ansi.exprText a = .ok atext)
    (hb : Dialect.ansi.exprText b = .ok btext) :
    ∃ atree btree sum difference,
      arithmetic? .doubled atext = some atree ∧
      arithmetic? .doubled btext = some btree ∧
      Dialect.ansi.exprText (.call .addDays [a, b]) = .ok sum ∧
      Dialect.ansi.exprText (.call .daysBetween [a, b]) =
        .ok ("EXTRACT(DAY FROM " ++ difference ++ ")") ∧
      (arithmetic? .doubled sum =
          some (.operation .plus atree
            (.operation .times btree (.operand dayLexemes))) ↔
        b.level ≠ .sum) ∧
      (arithmetic? .doubled difference =
          some (.operation .minus atree btree) ↔
        b.level ≠ .sum) := by
  obtain ⟨atree, hatree⟩ := a.exists_written anames ha
  obtain ⟨btree, hbtree⟩ := b.exists_written bnames hb
  have hproduct := b.written_product_iff bnames hb hbtree
  have htexts : Dialect.ansi.exprTexts [a, b] = .ok [atext, btext] := by
    rw [Dialect.exprTexts, ha, Dialect.exprTexts, hb, Dialect.exprTexts]
    rfl
  obtain ⟨_, hdifference⟩ := hatree.exists_splice hbtree .minus
  refine ⟨atree, btree,
    "(" ++ atext ++ " + " ++ btext ++ " * INTERVAL '1' DAY)",
    "(" ++ Operator.minus.between atext btext ++ ")",
    hatree.arithmetic?_eq, hbtree.arithmetic?_eq, ?_, ?_,
    (hatree.addDays_iff hbtree).trans hproduct, ?_⟩
  · rw [Dialect.exprText, htexts]
    rfl
  · rw [Dialect.exprText, htexts, ← daysBetween_eq]
    rfl
  · -- The bracket is read as what is in it, and the second date stands there
    -- as it is.
    rw [hdifference.arithmetic?_group, hatree.arithmetic?_splice_iff hbtree]
    exact (and_iff_right hatree.sum).trans hproduct

/-- A number of weeks is added as a whole, and taken away as a whole. -/
theorem weeks_whole :
    ∃ sum difference,
      Dialect.ansi.exprText (.call .addDays [.ofName "due",
        .arithmetic .times (.ofName "weeks") (.literal (.integer 7))]) =
          .ok sum ∧
      arithmetic? .doubled sum = some (.operation .plus
        (.operand [.word "due"])
        (.operation .times (.operation .times (.operand [.word "weeks"])
          (.operand [.word "7"])) (.operand dayLexemes))) ∧
      Dialect.ansi.exprText (.call .daysBetween [.ofName "due",
        .arithmetic .times (.ofName "weeks") (.literal (.integer 7))]) =
          .ok ("EXTRACT(DAY FROM " ++ difference ++ ")") ∧
      arithmetic? .doubled difference = some (.operation .minus
        (.operand [.word "due"]) (.operation .times
          (.operand [.word "weeks"]) (.operand [.word "7"]))) := by
  have hdays : Dialect.ansi.exprText
      (.arithmetic .times (.ofName "weeks") (.literal (.integer 7))) =
        .ok "weeks * 7" := by
    decide +kernel
  obtain ⟨atree, btree, sum, difference, ha, hb, hsum, hdifference,
    hsumTree, hdifferenceTree⟩ :=
    Expr.whole_dates (a := .ofName "due") (by decide) (by decide) rfl hdays
  have hdue : arithmetic? .doubled "due" = some (.operand [.word "due"]) := by
    decide +kernel
  have hweeks : arithmetic? .doubled "weeks * 7" =
      some (.operation .times (.operand [.word "weeks"])
        (.operand [.word "7"])) := by
    decide +kernel
  cases ha.symm.trans hdue
  cases hb.symm.trans hweeks
  exact ⟨sum, difference, hsum, hsumTree.2 (by decide), hdifference,
    hdifferenceTree.2 (by decide)⟩

/-- Of a sum, only the second part is multiplied by the length of a day. -/
theorem days_torn :
    Dialect.ansi.exprText (.arithmetic .plus (.ofName "weeks")
      (.ofName "rest")) = .ok "weeks + rest" ∧
    arithmetic? .doubled "weeks + rest" =
      some (.operation .plus (.operand [.word "weeks"])
        (.operand [.word "rest"])) ∧
    Dialect.ansi.exprText (.call .addDays [.ofName "due",
      .arithmetic .plus (.ofName "weeks") (.ofName "rest")]) =
        .ok "(due + weeks + rest * INTERVAL '1' DAY)" ∧
    arithmetic? .doubled "(due + weeks + rest * INTERVAL '1' DAY)" =
      some (.operation .plus
        (.operation .plus (.operand [.word "due"]) (.operand [.word "weeks"]))
        (.operation .times (.operand [.word "rest"])
          (.operand dayLexemes))) := by
  decide +kernel

end SchemaEvolution

import SchemaEvolution.Dialect.ExprText
import SchemaEvolution.Proofs.Sql.Skeleton
import SchemaEvolution.Proofs.Text.Numeral

/-!
# `SchemaEvolution.Proofs.Sql.Expressions`: expressions with holes

What standard SQL writes for an expression, a condition or a key of a
sort has one skeleton whatever the strings are, and where it cannot be
written the error is one and the same. The proof follows the syntax.
Literals that a template writes itself (the format of a date, the
escape character of a `LIKE`) have code on both sides of them, and so
has every argument, also one that is written more than once.

* `reads_call`: the templates of the functions keep their arguments
  apart.
* `uniform_exprText`, `uniform_criterionText`, `uniform_sortKeyText`:
  expressions, conditions and keys of a sort.
-/

set_option autoImplicit false

namespace SchemaEvolution

open SchemaEvolution.Calendar
open SchemaEvolution.Text

/-! ### Parts without quotes -/

/-- No digit is a quote. -/
theorem quoteFree_of_isDigit {cs : List Char}
    (h : ∀ c ∈ cs, c.isDigit = true) : quote ∉ cs :=
  fun hmem => absurd (h quote hmem) (by decide)

/-- The digits of a number are written without quotes. -/
theorem quoteFree_toDigits (n : Nat) : quote ∉ Nat.toDigits 10 n :=
  quoteFree_of_isDigit fun _ hc =>
    Nat.isDigit_of_mem_toDigits (by decide) (by decide) hc

/-- So is the number. -/
theorem quoteFree_toString_nat (n : Nat) : QuoteFree (toString n) := by
  rw [Nat.toString_eq_ofList_toDigits, QuoteFree, String.toList_ofList]
  exact quoteFree_toDigits n

/-- So is one with a sign in front. -/
theorem quoteFree_toString_int (i : Int) : QuoteFree (toString i) := by
  cases i with
  | ofNat n => exact quoteFree_toString_nat n
  | negSucc n =>
      have hneg : toString (Int.negSucc n) = "-" ++ toString (n + 1) := rfl
      rw [hneg]
      exact QuoteFree.append (by decide) (quoteFree_toString_nat _)

/-- So is one that zeros have been put in front of. -/
theorem quoteFree_padded (width n : Nat) :
    QuoteFree (padded width n) := by
  rw [padded, QuoteFree, String.toList_ofList, List.mem_append]
  rintro (hmem | hmem)
  · exact absurd (List.eq_of_mem_replicate hmem) (by decide)
  · exact quoteFree_toDigits n hmem

/-- A date is written without quotes. -/
theorem quoteFree_dateText (d : Date) : QuoteFree d.text := by
  have hyear : QuoteFree (Date.yearText d.year) := by
    unfold Date.yearText
    split
    · exact quoteFree_padded _ _
    · refine QuoteFree.append ?_ (quoteFree_padded _ _)
      split <;> decide
  exact (((hyear.append (by decide)).append (quoteFree_padded _ _)).append
    (by decide)).append (quoteFree_padded _ _)

/-- There is no quote in a numeral. -/
theorem quoteFree_of_spells {n : Numeral} {s : String}
    (h : n.Spells s) : QuoteFree s := fun hmem => by
  have := h.isDigit_or hmem
  revert this
  decide

/-- A text that is recognized as a number is one that a numeral spells. -/
theorem quoteFree_of_isNumeral {s : String}
    (h : Numeral.isNumeral s = true) : QuoteFree s := by
  obtain ⟨n, hn⟩ := Numeral.isSpelled_iff.mp (Numeral.isNumeral_iff.mp h)
  exact quoteFree_of_spells hn

/-- A type is written without quotes. -/
theorem quoteFree_columnType {type : DataType} {width scale : UInt32}
    {text : String} (h : Ansi.columnType type width scale = .ok text) :
    QuoteFree text := by
  have hnat := quoteFree_toString_nat
  cases type with
  | string =>
      cases h
      exact (QuoteFree.append (by decide) (hnat _)).append (by decide)
  | decimal =>
      cases h
      exact ((((QuoteFree.append (by decide) (hnat _)).append
        (by decide)).append (hnat _)).append (by decide))
  | null => cases h
  | date | boolean | integer | bigInteger | blob | clob =>
      cases h
      decide

/-! ### Calls -/

section Calls

variable {n : Nat} {ls ms ks : Literals} {t : Refill → List String}

/-- A call that is written as its name and its arguments. -/
theorem reads_callText (function : String) (hname : QuoteFree function)
    (ht : ReadsAll n ls t) :
    Reads ls fun f => callText function (t f) := by
  simp only [callText, String.append_assoc]
  have hargs : Reads ls fun f => ", ".intercalate (t f) ++ ")" :=
    (ht.intercalate (by cbv)).append_const (.of_isJoint (by cbv))
  exact ((Opens.of_quoteFree hname).append
    (.of_isJoint_append (by cbv) hargs)).reads

/-- A template of one argument. With another number of arguments it is
written as a call without a name. -/
theorem reads_unary {template : String → String}
    (h : ∀ {ls : Literals} {a : Refill → String}, Reads ls a →
      Reads ls fun f => template (a f))
    (ht : ReadsAll n ls t) : Reads ls fun f => unary template (t f) := by
  have hcall := reads_callText "" (by decide) ht
  obtain ⟨parts, -, rfl, hparts, rfl⟩ := ht
  match parts with
  | [] => exact hcall
  | [p] =>
      simp only [List.flatMap_cons, List.flatMap_nil, List.append_nil]
      exact h (hparts p List.mem_cons_self)
  | p :: q :: rest => exact hcall

/-- A template of two arguments. -/
theorem reads_binary {template : String → String → String}
    (h : ∀ {ls ms : Literals} {a b : Refill → String}, Reads ls a →
      Reads ms b → Reads (ls ++ ms) fun f => template (a f) (b f))
    (ht : ReadsAll n ls t) : Reads ls fun f => binary template (t f) := by
  have hcall := reads_callText "" (by decide) ht
  obtain ⟨parts, -, rfl, hparts, rfl⟩ := ht
  match parts with
  | [] => exact hcall
  | [p] => exact hcall
  | [p, q] =>
      simp only [List.flatMap_cons, List.flatMap_nil, List.append_nil]
      exact h (hparts p (by simp)) (hparts q (by simp))
  | p :: q :: r :: rest => exact hcall

section Between

variable {a b c : Refill → String}

/-- The argument stands between two constants. -/
theorem reads_between {before after : String}
    (hbefore : isJoint before = true) (hafter : isJoint after = true)
    (ha : Reads ls a) : Reads ls fun f => before ++ a f ++ after := by
  simp only [String.append_assoc]
  exact (Opens.of_isJoint_append hbefore
    (ha.append_const (.of_isJoint hafter))).reads

/-- Two arguments stand between three constants. -/
theorem reads_between₂ {before middle after : String}
    (hbefore : isJoint before = true) (hmiddle : isJoint middle = true)
    (hafter : isJoint after = true) (ha : Reads ls a) (hb : Reads ms b) :
    Reads (ls ++ ms) fun f =>
      before ++ a f ++ middle ++ b f ++ after := by
  have hrest : Reads ms fun f => b f ++ after :=
    hb.append_const (.of_isJoint hafter)
  simp only [String.append_assoc]
  exact (Opens.of_isJoint_append hbefore
    (ha.append (.of_isJoint_append hmiddle hrest))).reads

/-- Three arguments stand between four constants. -/
theorem reads_between₃ {before first second after : String}
    (hbefore : isJoint before = true) (hfirst : isJoint first = true)
    (hsecond : isJoint second = true) (hafter : isJoint after = true)
    (ha : Reads ls a) (hb : Reads ms b) (hc : Reads ks c) :
    Reads (ls ++ (ms ++ ks)) fun f =>
      before ++ a f ++ first ++ b f ++ second ++ c f ++ after := by
  have hrest : Reads (ms ++ ks) fun f =>
      b f ++ (second ++ (c f ++ after)) :=
    hb.append (.of_isJoint_append hsecond
      (hc.append_const (.of_isJoint hafter)))
  simp only [String.append_assoc]
  exact (Opens.of_isJoint_append hbefore
    (ha.append (.of_isJoint_append hfirst hrest))).reads

/-- The date that eight digits spell is written with the digits in three
places, and its literals are those of the digits all the same. -/
theorem reads_dateOfDigits (ha : Reads ls a) :
    Reads ls fun f => Ansi.dateOfDigits (a f) := by
  have hthree : Reads (ls ++ (ls ++ ls)) fun f =>
      Ansi.dateOfDigits (a f) := by
    unfold Ansi.dateOfDigits
    exact reads_between₃ (by cbv) (by cbv) (by cbv) (by cbv) ha ha ha
  exact hthree.congr (by simp) (by simp)

end Between

/-- Every function of standard SQL keeps its arguments apart, and writes
all of them. -/
theorem reads_call {dialect : String} {kind : FunctionKind}
    {template : List String → String} (hcount : kind.checkCount n = .ok ())
    (h : Ansi.call dialect kind = .ok template) (ht : ReadsAll n ls t) :
    Reads ls fun f => template (t f) := by
  cases kind with
  | randomString => cases h
  | count =>
      cases h
      have hcall := reads_callText "COUNT" (by decide) ht
      obtain ⟨parts, -, rfl, hparts, rfl⟩ := ht
      cases parts with
      | nil => exact (Opens.of_isJoint (by cbv)).reads
      | cons p rest => exact hcall
  | now =>
      cases h
      -- There are no arguments that could be left out.
      obtain rfl : n = 0 := (FunctionKind.checkCount_fixed rfl n).mp hcount
      obtain ⟨parts, hlength, rfl, -, -⟩ := ht
      obtain rfl := List.eq_nil_of_length_eq_zero hlength
      exact (Opens.of_isJoint (by cbv)).reads
  | daysBetween | addDays =>
      cases h
      exact reads_binary
        (reads_between₂ (by cbv) (by cbv) (by cbv)) ht
  | yyyymmddToDate =>
      cases h
      exact reads_unary reads_dateOfDigits ht
  | dateToYyyymmdd | dateToYyyymmddHhmmss | leftTrim | rightTrim =>
      cases h
      exact reads_unary (reads_between (by cbv) (by cbv)) ht
  | coalesce | isNull | monthsBetween | addMonths | leftPad
  | lastDayOfMonth | sum | min | max | average | trim | length | upper
  | lower | floor | modulo | round | substring =>
      cases h
      exact reads_callText _ (by decide) ht

end Calls

/-! ### What a refill leaves alone -/

/-- A refill puts literals in the places of literals, so what is
arithmetic stays arithmetic. -/
theorem Expr.isArithmetic_refill (f : Refill) (e : Expr) :
    (e.substitute f.substitution).isArithmetic = e.isArithmetic :=
  Expr.isArithmetic_substitute (fun _ _ => rfl) e

/-- A refill changes no name that an expression has in a result. -/
theorem Expr.impliedName?_refill (f : Refill) (e : Expr) :
    (e.substitute f.substitution).impliedName? = e.impliedName? := by
  cases e <;> rfl

/-! ### Expressions -/

/-- The name in front of a column is the alias of the table or its own name,
both of which the statement holds. -/
theorem quoteFree_tableQualifier {t : TableRef}
    (h : ∀ n ∈ t.names, QuoteFree n) : QuoteFree t.qualifier := by
  unfold TableRef.qualifier
  cases ht : t.aliasName with
  | none => exact h _ (by simp [TableRef.names])
  | some name => exact h _ (by simp [TableRef.names, ht])

/-- A field whose names are without quotes is written without quotes. -/
theorem quoteFree_field {f : FieldRef} (h : ∀ n ∈ f.names, QuoteFree n) :
    QuoteFree f.text := by
  have hname : QuoteFree f.name := h _ (by simp [FieldRef.names])
  unfold FieldRef.text
  cases ht : f.table with
  | none => exact hname
  | some t =>
      have hqualifier : QuoteFree t.qualifier := by
        refine quoteFree_tableQualifier fun n hn => h n ?_
        simp [FieldRef.names, ht, hn]
      exact (hqualifier.append (by decide)).append hname

/-- A constant is written in the same way whatever the strings are. -/
theorem uniform_literalText (l : Literal) :
    Uniform (Reads [([], l)]) fun f =>
      Dialect.ansi.literalText (l.refill (f [])) := by
  have hconst : ∀ {text : String}, QuoteFree text →
      (∀ s, l ≠ .string s) → (∀ d, l ≠ .date d) →
      Reads [([], l)] fun _ => text := fun htext hstring hdate =>
    (Opens.of_quoteFree htext).reads.congr
      (fun _ s => by simpa using fun _ => (hstring s).symm) (by simp)
  cases l with
  | string s => exact .pure (reads_string s)
  | null => exact .pure (hconst (by decide) (by simp) (by simp))
  | integer i =>
      exact .pure (hconst (quoteFree_toString_int _) (by simp) (by simp))
  | boolean b =>
      cases b with
      | false => exact .pure (hconst (by decide) (by simp) (by simp))
      | true => exact .pure (hconst (by decide) (by simp) (by simp))
  | decimal text =>
      show Uniform _ fun _ => Ansi.literal Ansi.escape (.decimal text)
      refine .const fun b hb => ?_
      -- The text is written as it is, but only if it is a numeral.
      obtain ⟨_, hvalid, hb⟩ := bind_eq_ok_iff.mp hb
      cases hb
      exact hconst (quoteFree_of_isNumeral
        ((Literal.validate_decimal_iff text).mp hvalid))
        (by simp) (by simp)
  | date d =>
      have hown : IsOwn [([], .date d)] d.text :=
        .inr ⟨[], d, List.mem_cons_self, rfl⟩
      have hdate : Reads [([], .date d)] fun _ =>
          "DATE " ++ ("'" ++ d.text ++ "'") :=
        (Opens.of_isJoint_append (by cbv)
          (reads_own (quoteFree_dateText d) hown (by simp))).reads
      have htext : "DATE " ++ ("'" ++ d.text ++ "'") =
          "DATE '" ++ d.text ++ "'" := by
        rw [← String.append_assoc, ← String.append_assoc]
        rfl
      rw [htext] at hdate
      exact .pure hdate

/-- An operand, with or without brackets. -/
theorem reads_bracketed {ls : Literals} {a : Refill → String}
    (b : Bool) (ha : Reads ls a) :
    Reads ls fun f => Ansi.bracketed ⟨a f, b⟩ := by
  cases b with
  | false => exact ha
  | true => exact reads_between (by cbv) (by cbv) ha

/-- The sign of an operation stands between code. -/
theorem isJoint_operator (op : Operator) :
    isJoint (" " ++ op.symbol ++ " ") = true := by
  cases op <;> cbv

/-- Arithmetic is its two operands with a sign between them. -/
theorem reads_arithmetic {ls ms : Literals} {a b : Refill → String}
    (op : Operator) (left right : Bool) (ha : Reads ls a)
    (hb : Reads ms b) :
    Reads (ls ++ ms) fun f =>
      Ansi.arithmetic op ⟨a f, left⟩ ⟨b f, right⟩ := by
  have hright := Opens.of_isJoint_append (isJoint_operator op)
    (reads_bracketed right hb)
  simpa only [Ansi.arithmetic, String.append_assoc] using
    (reads_bracketed left ha).append hright

/-- A cast is its expression with a type behind it. -/
theorem reads_cast {ls : Literals} {a : Refill → String} {type : String}
    (htype : QuoteFree type) (ha : Reads ls a) :
    Reads ls fun f => "CAST(" ++ a f ++ " AS " ++ type ++ ")" := by
  have hend : Opens [] fun _ => " AS " ++ (type ++ ")") :=
    .of_isJoint_append (by cbv)
      ((Opens.of_quoteFree htype).append (.of_isJoint (by cbv))).reads
  simp only [String.append_assoc]
  exact (Opens.of_isJoint_append (by cbv) (ha.append_const hend)).reads

mutual

/-- An expression is written in the same way whatever its strings
are. -/
theorem uniform_exprText : ∀ e : Expr, (∀ n ∈ e.names, QuoteFree n) →
    Uniform (Reads e.literals) fun f =>
      Dialect.ansi.exprText (e.substitute f.substitution)
  | .field fld, h => .pure (Opens.of_quoteFree (quoteFree_field h)).reads
  | .literal l, _ => uniform_literalText l
  | .call kind args, h => by
      simp only [Expr.substitute, Dialect.exprText,
        Expr.length_substituteList, Expr.literals]
      -- Neither the number of the arguments nor the template hangs on the
      -- strings.
      refine .bind_const fun _ hcount => ?_
      refine .bind_const fun template htemplate => ?_
      refine (uniform_exprTexts args h).bind fun t ht => ?_
      exact .pure (reads_call hcount htemplate ht)
  | .cast e type width scale, h => by
      simp only [Expr.substitute, Dialect.exprText, Expr.literals]
      refine (uniform_exprText e h).bind fun t ht => ?_
      refine .bind_const fun typeText htype => .pure ?_
      exact reads_cast (quoteFree_columnType htype) ht
  | .arithmetic op left right, h => by
      simp only [Expr.substitute, Dialect.exprText,
        Refill.substitution_under, Expr.isArithmetic_refill, Expr.literals]
      rw [Expr.names, List.forall_mem_append] at h
      -- A refill makes nothing arithmetic that was not, so the brackets stay.
      refine ((uniform_exprText left h.1).branch 0).bind fun a ha => ?_
      refine ((uniform_exprText right h.2).branch 1).bind fun b hb => ?_
      exact .pure (reads_arithmetic op _ _ ha hb)
  | .concat parts, h => by
      simp only [Expr.substitute, Dialect.exprText, Expr.literals]
      refine (uniform_exprTexts parts h).bind fun t ht => .pure ?_
      exact reads_callText _ (by decide) ht
  | .aliased e name, h => by
      simp only [Expr.substitute, Dialect.exprText, Expr.literals]
      exact uniform_exprText e fun n hn => h n (List.mem_cons_of_mem name hn)

/-- Expressions are written in the same way whatever their strings
are. -/
theorem uniform_exprTexts : ∀ es : List Expr,
    (∀ n ∈ Expr.namesList es, QuoteFree n) →
    Uniform (ReadsAll es.length (Expr.literalsList es)) fun f =>
      Dialect.ansi.exprTexts (Expr.substituteList f.substitution es)
  | [], _ => .pure .nil
  | e :: rest, h => by
      simp only [Expr.substituteList, Dialect.exprTexts, Expr.literalsList]
      rw [Expr.namesList, List.forall_mem_append] at h
      exact (uniform_exprText e h.1).cons (uniform_exprTexts rest h.2)

end

/-- A list of expressions is written in the same way whatever their
strings are. -/
theorem uniform_exprListText {es : List Expr}
    (h : ∀ n ∈ Expr.namesList es, QuoteFree n) :
    Uniform (Reads (Expr.literalsList es)) fun f =>
      Dialect.ansi.exprListText (Expr.substituteList f.substitution es) := by
  refine (uniform_exprTexts es h).bind fun t ht => ?_
  exact .pure (ht.intercalate (by cbv))

/-! ### Conditions -/

/-- The sign of a comparison stands between code. -/
theorem isJoint_comparison (op : Comparison) :
    isJoint (" " ++ op.symbol ++ " ") = true := by
  cases op <;> cbv

/-- What follows a comparison opens: nothing, or the escape character of
a `LIKE` in quotes of its own. -/
theorem opens_likeSuffix (op : Comparison) :
    Opens [] fun _ =>
      if op = .like then Dialect.ansi.likeSuffix else "" := by
  by_cases hop : op = .like
  · simp only [if_pos hop]
    -- The writer puts a literal of its own behind the comparison.
    show Opens [] fun _ => " ESCAPE " ++ ("'" ++ "\\" ++ "'")
    exact Opens.of_isJoint_append (by cbv)
      (reads_own (by decide) (.inl (by decide)) (by simp))
  · simp only [if_neg hop]
    exact Opens.of_quoteFree (by decide)

/-- A comparison is its two sides with a sign between them. -/
theorem reads_comparison {ls ms : Literals} {a b : Refill → String}
    (op : Comparison) (ha : Reads ls a) (hb : Reads ms b) :
    Reads (ls ++ ms) fun f => a f ++ " " ++ op.symbol ++ " " ++ b f ++
      (if op = .like then Dialect.ansi.likeSuffix else "") := by
  have hright := Opens.of_isJoint_append (isJoint_comparison op)
    (hb.append_const (opens_likeSuffix op))
  simpa only [String.append_assoc] using ha.append hright

/-- Conditions in brackets, with a word between them. -/
theorem reads_group {n : Nat} {ls : Literals}
    {t : Refill → List String} {word : String}
    (hword : isJoint word = true) (ht : ReadsAll n ls t) :
    Reads ls fun f => "(" ++ word.intercalate (t f) ++ ")" :=
  reads_between (by cbv) (by cbv)
    (ht.intercalate hword)

mutual

/-- A condition is written in the same way whatever its strings are. -/
theorem uniform_criterionText : ∀ c : Criterion,
    (∀ n ∈ c.names, QuoteFree n) →
    Uniform (Reads c.literals) fun f =>
      Dialect.ansi.criterionText (c.substitute f.substitution)
  | .compare op left right, h => by
      simp only [Criterion.substitute, Dialect.criterionText,
        Criterion.literals]
      rw [Criterion.names, List.forall_mem_append] at h
      refine ((uniform_exprText left h.1).branch 0).bind fun a ha => ?_
      refine ((uniform_exprText right h.2).branch 1).bind fun b hb => ?_
      exact .pure (reads_comparison op ha hb)
  | .isNull e, h => by
      simp only [Criterion.substitute, Dialect.criterionText,
        Criterion.literals]
      refine (uniform_exprText e h).bind fun t ht => .pure ?_
      exact ht.append_const (.of_isJoint (by cbv))
  | .isNotNull e, h => by
      simp only [Criterion.substitute, Dialect.criterionText,
        Criterion.literals]
      refine (uniform_exprText e h).bind fun t ht => .pure ?_
      exact ht.append_const (.of_isJoint (by cbv))
  | .isIn e values, h => by
      simp only [Criterion.substitute, Dialect.criterionText,
        Criterion.literals]
      rw [Criterion.names, List.forall_mem_append] at h
      refine ((uniform_exprText e h.1).branch 0).bind fun a ha => ?_
      refine ((uniform_exprListText h.2).branch 1).bind fun b hb =>
        .pure ?_
      -- No literal of the expression meets one of the list, since ` IN (` is
      -- between them.
      have hlist := Opens.of_isJoint_append (c := " IN (") (by cbv)
        (hb.append_const (.of_isJoint (c := ")") (by cbv)))
      simpa only [String.append_assoc] using ha.append hlist
  | .all cs, h => by
      simp only [Criterion.substitute, Dialect.criterionText,
        Criterion.literals]
      refine (uniform_criterionTexts cs h).bind fun t ht => .pure ?_
      exact reads_group (by cbv) ht
  | .any cs, h => by
      simp only [Criterion.substitute, Dialect.criterionText,
        Criterion.literals]
      refine (uniform_criterionTexts cs h).bind fun t ht => .pure ?_
      exact reads_group (by cbv) ht
  | .not c, h => by
      simp only [Criterion.substitute, Dialect.criterionText,
        Criterion.literals]
      refine (uniform_criterionText c h).bind fun t ht => .pure ?_
      exact reads_between (by cbv) (by cbv) ht

/-- Conditions are written in the same way whatever their strings
are. -/
theorem uniform_criterionTexts : ∀ cs : List Criterion,
    (∀ n ∈ Criterion.namesList cs, QuoteFree n) →
    Uniform (ReadsAll cs.length (Criterion.literalsList cs)) fun f =>
      Dialect.ansi.criterionTexts
        (Criterion.substituteList f.substitution cs)
  | [], _ => .pure .nil
  | c :: rest, h => by
      simp only [Criterion.substituteList, Dialect.criterionTexts,
        Criterion.literalsList]
      rw [Criterion.namesList, List.forall_mem_append] at h
      exact (uniform_criterionText c h.1).cons
        (uniform_criterionTexts rest h.2)

end

/-! ### Sort keys -/

/-- What follows the expression of a key is written without quotes. -/
theorem quoteFree_sortKey (d : SortDirection)
    (nulls : Option NullPlacement) : QuoteFree (Ansi.sortKey "" d nulls) := by
  cases d <;> rcases nulls with _ | _ | _ <;> decide

/-- What follows the expression of a key does not hang on it. -/
theorem sortKey_eq_append (text : String) (d : SortDirection)
    (nulls : Option NullPlacement) :
    Ansi.sortKey text d nulls = text ++ Ansi.sortKey "" d nulls := by
  cases nulls <;>
    simp only [Ansi.sortKey, String.append_assoc, String.empty_append]

/-- A key of a sort is written in the same way whatever its strings
are. -/
theorem uniform_sortKeyText {k : SortKey}
    (h : ∀ n ∈ k.expr.names, QuoteFree n) :
    Uniform (Reads k.literals) fun f =>
      Dialect.ansi.sortKeyText (k.substitute f.substitution) := by
  refine (uniform_exprText k.expr h).bind fun t ht => .pure ?_
  have hkey : (fun f => Ansi.sortKey (t f) k.direction k.nulls) =
      fun f => t f ++ Ansi.sortKey "" k.direction k.nulls :=
    funext fun f => sortKey_eq_append (t f) k.direction k.nulls
  show Reads k.literals fun f => Ansi.sortKey (t f) k.direction k.nulls
  rw [hkey]
  exact ht.append_const
    (.of_quoteFree (quoteFree_sortKey k.direction k.nulls))

end SchemaEvolution

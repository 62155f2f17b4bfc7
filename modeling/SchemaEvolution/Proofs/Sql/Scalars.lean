import SchemaEvolution.Proofs.Calendar.Months
import SchemaEvolution.Proofs.Sql.Arithmetic
import SchemaEvolution.Proofs.Sql.Lexemes
import SchemaEvolution.Query.Criterion

/-!
# `SchemaEvolution.Proofs.Sql.Scalars`: computing with dates and numbers

The expressions of SQL that are read here compute with dates and whole
numbers: the four operations, `EXTRACT` of a part of a date, and `CASE` with
comparisons. What stands in between is a term, the name of a column or the
call of a function with its arguments. Nothing looks into a term, and whoever
asks for the value of an expression says what its terms are worth. Only the
constant `DATE('...')` is worth the date that it spells.

Expressions are read from pieces in one pass, in the way in which
`SchemaEvolution.Proofs.Sql.Arithmetic` reads operations. The levels of the
grammar are the same, but a primary may also be an `EXTRACT` or a `CASE`, with
expressions in it. It is the reader that says what a text is worth; the
grammar serves to find out what it reads.

* `Scalar.value?`: the value of an expression.
* `Derives`: the grammar, with one rule for each way of putting pieces
  together.
* `Derives.parses`: a phrase is read in one pass, whatever follows it.
* `parse?_of_derives`: what the grammar derives is read.
-/

set_option autoImplicit false

namespace SchemaEvolution

open SchemaEvolution.Calendar
open SchemaEvolution.Sql

/-! ### Expressions and their values -/

namespace Sql

/-- What `EXTRACT` takes from a date. -/
inductive DatePart where
  | year
  | month
  | day
deriving DecidableEq

/-- The word for a part. -/
def DatePart.text : DatePart → String
  | .year => "YEAR"
  | .month => "MONTH"
  | .day => "DAY"

/-- The part that a word stands for. -/
def DatePart.ofText? (s : String) : Option DatePart :=
  [.year, .month, .day].find? fun part => part.text = s

/-- The part of a date. -/
def DatePart.of (d : Date) : DatePart → Int
  | .year => d.year
  | .month => d.month
  | .day => d.day

/-- What operations are applied to. -/
inductive Primary where
  | term (ls : List Lexeme)
  | number (i : Int)
  | extract (part : DatePart) (e : Arithmetic Primary)
  /-- `yes` if the comparison holds, and `no` otherwise. -/
  | choice (test : Comparison) (left right yes no : Arithmetic Primary)

/-- An expression that computes with dates and numbers. -/
abbrev Scalar := Arithmetic Primary

/-- A date or a whole number. -/
inductive Value where
  | date (d : Date)
  | number (i : Int)
deriving DecidableEq

end Sql

/-- Whether a comparison holds. A pattern is not compared with. -/
def Comparison.decides? {α : Type} [LinearOrder α] (a b : α) :
    Comparison → Option Bool
  | .eq => some (a = b)
  | .notEq => some (a ≠ b)
  | .lt => some (a < b)
  | .ltEq => some (a ≤ b)
  | .gt => some (b < a)
  | .gtEq => some (b ≤ a)
  | .like => none

/-- Whether a comparison holds between values of one kind. -/
def Comparison.holds? (test : Comparison) : Value → Value → Option Bool
  | .date d, .date e => test.decides? d e
  | .number i, .number j => test.decides? i j
  | _, _ => none

/-- What an operation makes of two values. A number that is added to a date
is one of days. Divisions are not computed, because they leave the whole
numbers. -/
def Operator.value? : Operator → Value → Value → Option Value
  | .plus, .number i, .number j => some (.number (i + j))
  | .minus, .number i, .number j => some (.number (i - j))
  | .times, .number i, .number j => some (.number (i * j))
  | .plus, .date d, .number i => some (.date (d.addDays i))
  | .minus, .date d, .number i => some (.date (d.addDays (-i)))
  | _, _, _ => none

namespace Sql

/-- The value of a term. Only the constant for a date has one by itself. -/
def termValue? (row : List Lexeme → Option Value) :
    List Lexeme → Option Value
  | [.word "DATE", .opening .round, .literal s, .closing .round] =>
      (Date.parse? s).map .date
  | ls => row ls

mutual

/-- The value of what an operation is applied to. -/
def Primary.value? (row : List Lexeme → Option Value) :
    Primary → Option Value
  | .term ls => termValue? row ls
  | .number i => some (.number i)
  | .extract part e => do
      match ← Scalar.value? row e with
      | .date d => some (.number (part.of d))
      | .number _ => none
  | .choice test left right yes no => do
      let l ← Scalar.value? row left
      let r ← Scalar.value? row right
      if ← test.holds? l r then Scalar.value? row yes
      else Scalar.value? row no

/-- The value of an expression. -/
def Scalar.value? (row : List Lexeme → Option Value) :
    Arithmetic Primary → Option Value
  | .operand p => Primary.value? row p
  | .operation op left right => do
      op.value? (← Scalar.value? row left) (← Scalar.value? row right)

end

/-! ### Pieces -/

namespace Scalar

/-- The words that are neither terms nor brackets. -/
inductive Keyword where
  | EXTRACT
  | FROM
  | WHEN
  | THEN
  | ELSE
deriving DecidableEq

/-- The word itself. -/
def Keyword.text : Keyword → String
  | .EXTRACT => "EXTRACT"
  | .FROM => "FROM"
  | .WHEN => "WHEN"
  | .THEN => "THEN"
  | .ELSE => "ELSE"

/-- A piece of a text. -/
inductive Piece where
  | term (ls : List Lexeme)
  | number (n : Nat)
  | operator (op : Operator)
  | mark (c : Char)
  | opening (b : Bracket)
  | closing (b : Bracket)
  | keyword (k : Keyword)
deriving DecidableEq

/-- The comparison that marks are. -/
def comparison? (marks : List Char) : Option Comparison :=
  [.eq, .notEq, .lt, .ltEq, .gt, .gtEq].find? fun test : Comparison =>
    test.symbol.toList = marks

/-! ### Reading in one pass -/

/-- What is open: a bracket, an `EXTRACT`, or a `CASE`. Within a `CASE`
`wrap` puts what is still to come behind the branches that were read. -/
inductive Frame where
  | group
  | extract (part : DatePart)
  | test (wrap : Scalar → Scalar)
  | compared (wrap : Scalar → Scalar) (test : Comparison) (left : Scalar)
  | result (wrap : Scalar → Scalar) (test : Comparison)
      (left right : Scalar)
  | otherwise (wrap : Scalar → Scalar)

/-- A choice as an expression. -/
def chosen (test : Comparison) (left right yes no : Scalar) : Scalar :=
  .operand (.choice test left right yes no)

/-- Reads on, with what is open, the innermost first, and what is pending
outside of it. -/
def parseFrom : List Piece → Arithmetic.ParseState Primary →
    List (Frame × Arithmetic.Pending Primary) → Option Scalar
  | [], .behind s t, [] => some (Arithmetic.onto s t)
  | .term ls :: ps, .before p, outer =>
      parseFrom ps (p.fill (.operand (.term ls))) outer
  | .number n :: ps, .before p, outer =>
      parseFrom ps (p.fill (.operand (.number n))) outer
  -- Where an operand is to come, a sign belongs to the number behind it.
  | .operator .minus :: .number n :: ps, .before p, outer =>
      parseFrom ps (p.fill (.operand (.number (-n)))) outer
  | .operator op :: ps, .behind s t, outer =>
      parseFrom ps (.before (.behind s t op)) outer
  | .opening .round :: ps, .before p, outer =>
      parseFrom ps (.before {}) ((.group, p) :: outer)
  | .closing .round :: ps, .behind s t, (.group, p) :: outer =>
      parseFrom ps (p.fill (Arithmetic.onto s t)) outer
  | .keyword .EXTRACT :: .opening .round :: .term [.word w] ::
      .keyword .FROM :: ps, .before p, outer =>
      match DatePart.ofText? w with
      | some part => parseFrom ps (.before {}) ((.extract part, p) :: outer)
      | none => none
  | .closing .round :: ps, .behind s t, (.extract part, p) :: outer =>
      parseFrom ps
        (p.fill (.operand (.extract part (Arithmetic.onto s t)))) outer
  | .opening .cases :: .keyword .WHEN :: ps, .before p, outer =>
      parseFrom ps (.before {}) ((.test id, p) :: outer)
  -- Marks are taken together as far as they go.
  | .mark c :: .mark d :: ps, .behind s t, (.test wrap, p) :: outer =>
      match comparison? [c, d] with
      | some test =>
          parseFrom ps (.before {})
            ((.compared wrap test (Arithmetic.onto s t), p) :: outer)
      | none => none
  | .mark c :: ps, .behind s t, (.test wrap, p) :: outer =>
      match comparison? [c] with
      | some test =>
          parseFrom ps (.before {})
            ((.compared wrap test (Arithmetic.onto s t), p) :: outer)
      | none => none
  | .keyword .THEN :: ps, .behind s t, (.compared wrap test l, p) :: outer =>
      parseFrom ps (.before {})
        ((.result wrap test l (Arithmetic.onto s t), p) :: outer)
  -- A branch ends where the next one begins, or the rest.
  | .keyword .WHEN :: ps, .behind s t, (.result wrap test l r, p) :: outer =>
      parseFrom ps (.before {})
        ((.test (wrap ∘ chosen test l r (Arithmetic.onto s t)), p) :: outer)
  | .keyword .ELSE :: ps, .behind s t, (.result wrap test l r, p) :: outer =>
      parseFrom ps (.before {})
        ((.otherwise (wrap ∘ chosen test l r (Arithmetic.onto s t)), p) ::
          outer)
  | .closing .cases :: ps, .behind s t, (.otherwise wrap, p) :: outer =>
      parseFrom ps (p.fill (wrap (Arithmetic.onto s t))) outer
  | _, _, _ => none

/-- The expression that pieces are read as. -/
def parse? (ps : List Piece) : Option Scalar :=
  parseFrom ps (.before {}) []

/-! ### The grammar -/

/-- What the grammar derives: expressions at each level, the branches of a
`CASE`, and what may stand behind a branch. -/
inductive Phrase where
  | scalar (level : Level)
  | branches
  | behind

/-- The marks that a comparison is written with. -/
def marks (test : Comparison) : List Piece :=
  test.symbol.toList.map .mark

/-- The pieces are derived as an expression. -/
inductive Derives : Phrase → List Piece → Scalar → Prop where
  | term (ls : List Lexeme) :
      Derives (.scalar .primary) [.term ls] (.operand (.term ls))
  | number (n : Nat) :
      Derives (.scalar .primary) [.number n] (.operand (.number n))
  | negative (n : Nat) :
      Derives (.scalar .primary) [.operator .minus, .number n]
        (.operand (.number (-n)))
  | group {ps : List Piece} {s : Scalar} : Derives (.scalar .sum) ps s →
      Derives (.scalar .primary)
        (.opening .round :: (ps ++ [.closing .round])) s
  | extract {ps : List Piece} {s : Scalar} (part : DatePart) :
      Derives (.scalar .sum) ps s →
      Derives (.scalar .primary)
        (.keyword .EXTRACT :: .opening .round :: .term [.word part.text] ::
          .keyword .FROM :: (ps ++ [.closing .round]))
        (.operand (.extract part s))
  | cases {ps : List Piece} {s : Scalar} : Derives .branches ps s →
      Derives (.scalar .primary) (.opening .cases :: ps) s
  | branch (test : Comparison) {ls rs ys ns : List Piece}
      {l r yes no : Scalar} : test ≠ .like → Derives (.scalar .sum) ls l →
      Derives (.scalar .sum) rs r → Derives (.scalar .sum) ys yes →
      Derives .behind ns no →
      Derives .branches
        (.keyword .WHEN :: (ls ++ (marks test ++ (rs ++
          .keyword .THEN :: (ys ++ ns)))))
        (chosen test l r yes no)
  | again {ps : List Piece} {s : Scalar} : Derives .branches ps s →
      Derives .behind ps s
  | otherwise {ps : List Piece} {s : Scalar} : Derives (.scalar .sum) ps s →
      Derives .behind (.keyword .ELSE :: (ps ++ [.closing .cases])) s
  | primary {ps : List Piece} {s : Scalar} :
      Derives (.scalar .primary) ps s → Derives (.scalar .product) ps s
  | product {ps : List Piece} {s : Scalar} :
      Derives (.scalar .product) ps s → Derives (.scalar .sum) ps s
  | operation {level : Level} {op : Operator} {ps qs : List Piece}
      {s t : Scalar} : op.level = level → Derives (.scalar level) ps s →
      Derives (.scalar op.operandLevel) qs t →
      Derives (.scalar level) (ps ++ .operator op :: qs)
        (.operation op s t)

namespace Derives

variable {level : Level} {ps qs : List Piece} {s t : Scalar}

/-- A primary is derived at every level. -/
theorem ofPrimary (h : Derives (.scalar .primary) ps s) :
    Derives (.scalar level) ps s := by
  cases level with
  | primary => exact h
  | product => exact h.primary
  | sum => exact h.primary.product

/-- An operator takes a further operand. -/
theorem join (op : Operator) (hs : Derives (.scalar op.level) ps s)
    (ht : Derives (.scalar op.operandLevel) qs t) :
    Derives (.scalar op.level) (ps ++ .operator op :: qs)
      (.operation op s t) :=
  .operation rfl hs ht

end Derives

/-- Pieces of a phrase are read as the expression, whatever is pending and
whatever follows. -/
def Phrase.Parses : Phrase → List Piece → Scalar → Prop
  | .scalar .primary, ps, s => ∀ p rest outer,
      parseFrom (ps ++ rest) (.before p) outer =
        parseFrom rest (p.fill s) outer
  | .scalar .product, ps, s => ∀ sum rest outer,
      parseFrom (ps ++ rest) (.before ⟨sum, none⟩) outer =
        parseFrom rest (.behind sum s) outer
  | .scalar .sum, ps, s => ∃ sum product,
      Arithmetic.onto sum product = s ∧ ∀ rest outer,
        parseFrom (ps ++ rest) (.before {}) outer =
          parseFrom rest (.behind sum product) outer
  | .branches, ps, s => ∃ qs, ps = .keyword .WHEN :: qs ∧
      ∀ wrap p rest outer,
        parseFrom (qs ++ rest) (.before {}) ((.test wrap, p) :: outer) =
          parseFrom rest (p.fill (wrap s)) outer
  | .behind, ps, s => ∀ wrap test l r sum product p rest outer,
      parseFrom (ps ++ rest) (.behind sum product)
          ((.result wrap test l r, p) :: outer) =
        parseFrom rest
          (p.fill (wrap (chosen test l r (Arithmetic.onto sum product) s)))
          outer

/-- No phrase begins with a mark. -/
theorem Derives.head?_ne_mark {phrase : Phrase} {ps : List Piece}
    {s : Scalar} (h : Derives phrase ps s) (rest : List Piece) (c : Char) :
    (ps ++ rest).head? ≠ some (.mark c) := by
  induction h generalizing rest with
  | primary _ ih | product _ ih | again _ ih => exact ih rest
  | operation _ _ _ ih _ =>
      rw [List.append_assoc]
      exact ih _
  | _ => exact nofun

/-- The marks of a comparison are read as that comparison. -/
theorem comparison?_symbol {test : Comparison} (h : test ≠ .like) :
    comparison? test.symbol.toList = some test := by
  cases test with
  | like => exact absurd rfl h
  | _ => decide

/-- A comparison is read where no mark follows. -/
theorem parseFrom_marks {test : Comparison} (h : test ≠ .like)
    {ps : List Piece} (hps : ∀ c, ps.head? ≠ some (.mark c))
    {sum : Option (Scalar × Operator)} {product : Scalar}
    (wrap : Scalar → Scalar) (p : Arithmetic.Pending Primary)
    (outer : List (Frame × Arithmetic.Pending Primary)) :
    parseFrom (marks test ++ ps) (.behind sum product)
        ((.test wrap, p) :: outer) =
      parseFrom ps (.before {})
        ((.compared wrap test (Arithmetic.onto sum product), p) ::
          outer) := by
  -- A sign is one mark or two, and the second is read before a comparison is
  -- made of them.
  have hread := comparison?_symbol h
  have hlength : (∃ c, test.symbol.toList = [c]) ∨
      ∃ c d, test.symbol.toList = [c, d] := by
    cases test with
    | like => exact absurd rfl h
    | eq | lt | gt => exact .inl ⟨_, rfl⟩
    | notEq | ltEq | gtEq => exact .inr ⟨_, _, rfl⟩
  rcases hlength with ⟨c, hc⟩ | ⟨c, d, hcd⟩
  · rw [hc] at hread
    rw [marks, hc]
    cases ps with
    | nil => simp [parseFrom, hread]
    | cons x rest =>
        cases x with
        | mark d => exact absurd rfl (hps d)
        | _ => simp [parseFrom, hread]
  · rw [hcd] at hread
    rw [marks, hcd]
    simp [parseFrom, hread]

theorem DatePart.ofText?_text (part : DatePart) :
    DatePart.ofText? part.text = some part := by
  cases part <;> decide

/-- What the grammar derives is read, by induction on the derivation. -/
theorem Derives.parses {phrase : Phrase} {ps : List Piece} {s : Scalar}
    (h : Derives phrase ps s) : phrase.Parses ps s := by
  induction h with
  | term ls => exact fun p rest outer => by simp [parseFrom]
  | number n => exact fun p rest outer => by simp [parseFrom]
  | negative n => exact fun p rest outer => by simp [parseFrom]
  | group _ ih =>
      -- What was pending before the bracket waits until it closes.
      obtain ⟨sum, product, rfl, hread⟩ := ih
      intro p rest outer
      rw [List.cons_append, List.append_assoc, parseFrom, hread]
      simp [parseFrom]
  | extract part _ ih =>
      obtain ⟨sum, product, rfl, hread⟩ := ih
      intro p rest outer
      simp [parseFrom, hread, DatePart.ofText?_text]
  | cases _ ih =>
      obtain ⟨qs, rfl, hread⟩ := ih
      intro p rest outer
      rw [List.cons_append, List.cons_append, parseFrom, hread]
      rfl
  | branch test htest _ hr _ _ ihl ihr ihy ihn =>
      obtain ⟨lsum, lproduct, rfl, hl⟩ := ihl
      obtain ⟨rsum, rproduct, rfl, hright⟩ := ihr
      obtain ⟨ysum, yproduct, rfl, hyes⟩ := ihy
      refine ⟨_, rfl, fun wrap p rest outer => ?_⟩
      simp only [List.append_assoc, List.cons_append]
      rw [hl, parseFrom_marks htest (hr.head?_ne_mark _), hright, parseFrom,
        hyes, ihn]
  | again _ ih =>
      obtain ⟨qs, rfl, hread⟩ := ih
      intro wrap test l r sum product p rest outer
      rw [List.cons_append, parseFrom, hread]
      rfl
  | otherwise _ ih =>
      obtain ⟨sum, product, rfl, hread⟩ := ih
      intro wrap test l r sum' product' p rest outer
      rw [List.cons_append, List.append_assoc, parseFrom, hread]
      simp [parseFrom]
  | primary _ ih => exact fun sum rest outer => ih ⟨sum, none⟩ rest outer
  | product _ ih =>
      exact ⟨none, _, rfl, fun rest outer => ih none rest outer⟩
  | @operation level op ps qs s t hlevel _ _ ihs iht =>
      cases op with
      | plus | minus =>
          cases hlevel
          obtain ⟨sum, product, rfl, hread⟩ := ihs
          refine ⟨some (Arithmetic.onto sum product, _), _, rfl,
            fun rest outer => ?_⟩
          rw [List.append_assoc, hread, List.cons_append, parseFrom]
          exact iht (some _) rest outer
      | times | divide =>
          cases hlevel
          intro sum rest outer
          rw [List.append_assoc, ihs sum, List.cons_append, parseFrom]
          exact iht ⟨sum, some _⟩ rest outer

/-- What the grammar derives is read. -/
theorem parse?_of_derives {ps : List Piece} {s : Scalar}
    (h : Derives (.scalar .sum) ps s) : parse? ps = some s := by
  obtain ⟨sum, product, rfl, hread⟩ := h.parses
  have hall := hread [] []
  rw [List.append_nil] at hall
  rw [parse?, hall]
  simp [parseFrom]

end Scalar

end Sql

end SchemaEvolution

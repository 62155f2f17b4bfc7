import SchemaEvolution.Proofs.Sql.Operands

/-!
# `SchemaEvolution.Proofs.Sql.ArithmeticText`: a text read as arithmetic

The lexemes of a text are cut into operands, operators and brackets, and
these are read by precedence. A bracket belongs to the arithmetic when it
stands where an operand is to come; behind a word it holds the arguments
of a call, which are part of an operand. A `+` or `-` where an operand is
to come is the sign of the number behind it.

* `HasParts.operand`, `HasParts.group`, `HasParts.join`: how the text of an
  operation is put together.
* `HasParts.arithmetic?_eq_some_iff`: a text is read as what its parts
  derive.
* `Written`: a text at a level of the grammar.
* `arithmetic?_splice_iff`: when an operator between two texts applies to
  the whole of both.
-/

set_option autoImplicit false

namespace SchemaEvolution.Sql

/-! ### Lexemes and parts -/

/-- Where a reader of lexemes stands: before an operand, within one of
which it has read some lexemes and some brackets are open, or behind one
that a bracket closed. -/
inductive CutState where
  | before
  | within (read : List Lexeme) (stack : List Bracket)
  | behind

/-- What a lexeme behind an operand is, and where a reader stands behind
it. -/
def link? : Lexeme → Option (Part (List Lexeme) × CutState)
  | .operator op => some (.operator op, .before)
  | .closing .round => some (.closing, .behind)
  | _ => none

/-- Cuts lexemes into parts. -/
def cut? : CutState → List Lexeme → Option (List (Part (List Lexeme)))
  | .before, [] | .behind, [] => some []
  | .within read [], [] => some [.operand read]
  | .within _ (_ :: _), [] => none
  | .before, .opening .round :: ls => (cut? .before ls).map (.opening :: ·)
  | .before, .operator op :: .word w :: ls =>
      if op.level = .sum ∧ isNumber w = true then
        cut? (.within [.operator op, .word w] []) ls
      else none
  | .before, x :: ls =>
      match enter? [] x with
      | some stack => cut? (.within [x] stack) ls
      | none => none
  | .within read stack, x :: ls =>
      match enter? stack x with
      | some stack => cut? (.within (read ++ [x]) stack) ls
      | none =>
          match stack, link? x with
          | [], some (part, state) =>
              (cut? state ls).map fun ps => .operand read :: part :: ps
          | _, _ => none
  | .behind, x :: ls =>
      match link? x with
      | some (part, state) => (cut? state ls).map (part :: ·)
      | none => none

/-- The lexemes that a part is made of. -/
def Part.lexemes : Part (List Lexeme) → List Lexeme
  | .operand ls => ls
  | .operator op => [.operator op]
  | .opening => [.opening .round]
  | .closing => [.closing .round]

/-- The parts of a text. -/
def parts? (q : QuoteRule) (s : String) :
    Option (List (Part (List Lexeme))) := do
  let ls ← q.lexemes? s.toList
  cut? .before ls

/-- The operations that a text is read as. -/
def arithmetic? (q : QuoteRule) (s : String) :
    Option (Arithmetic (List Lexeme)) := do
  let ps ← parts? q s
  Arithmetic.parse? ps

/-- The operators of a text that stand in no bracket. -/
def outerOperators? (q : QuoteRule) (s : String) :
    Option (List Operator) :=
  (parts? q s).map (outerOperators 0)

/-! ### Cutting parts apart -/

/-- An operand ends before these lexemes. -/
def Ends (rest : List Lexeme) : Prop :=
  ∀ x ∈ rest.head?, (link? x).isSome = true

/-- Parts are cut apart where they stand one behind the other. -/
def Cuts (ps : List (Part (List Lexeme))) : Prop :=
  ∀ rest, Ends rest →
    cut? .before (ps.flatMap Part.lexemes ++ rest) =
      (cut? .behind rest).map (ps ++ ·)

/-- The text may end behind an operand. -/
theorem ends_nil : Ends [] := by
  rintro x ⟨⟩

/-- An operand ends before an operator. -/
theorem ends_operator (op : Operator) (rest : List Lexeme) :
    Ends (.operator op :: rest) := by
  rintro x ⟨⟩
  rfl

/-- It ends before a closing bracket. -/
theorem ends_closing (rest : List Lexeme) :
    Ends (.closing .round :: rest) := by
  rintro x ⟨⟩
  rfl

/-- An operand that is complete ends where it can. -/
theorem cut?_within_ends {read rest : List Lexeme} (h : Ends rest) :
    cut? (.within read []) rest =
      (cut? .behind rest).map (.operand read :: ·) := by
  cases rest with
  | nil => rfl
  | cons x rest =>
      have hx := h x rfl
      cases x with
      | operator op =>
          simp [cut?, enter?, link?, Function.comp_def]
      | closing b =>
          cases b with
          | round => simp [cut?, enter?, link?, Function.comp_def]
          | cases => cases hx
      | _ => cases hx

/-- Within an operand, a reader goes on through lexemes that it can
enter. -/
theorem cut?_within (read : List Lexeme) {ls : List Lexeme}
    (rest : List Lexeme) {stack stack' : List Bracket}
    (h : enterAll stack ls = some stack') :
    cut? (.within read stack) (ls ++ rest) =
      cut? (.within (read ++ ls) stack') rest := by
  induction ls generalizing read stack with
  | nil =>
      cases h
      rw [List.append_nil]
      rfl
  | cons x ls ih =>
      rw [enterAll_cons] at h
      obtain ⟨next, hnext, hrest⟩ := Option.bind_eq_some_iff.1 h
      have hstep : cut? (.within read stack) (x :: (ls ++ rest)) =
          cut? (.within (read ++ [x]) next) (ls ++ rest) := by
        rw [cut?.eq_def]
        simp only [hnext]
      rw [List.cons_append, hstep, ih _ hrest, List.append_assoc]
      rfl

namespace Cuts

variable {ls : List Lexeme} {ps qs : List (Part (List Lexeme))}

/-- An operand is one part. -/
theorem operand (h : Whole ls) : Cuts [.operand ls] := by
  intro rest hrest
  have hlexemes : [Part.operand ls].flatMap Part.lexemes = ls := by
    simp [Part.lexemes]
  rw [hlexemes]
  refine Eq.trans ?_ (cut?_within_ends hrest)
  cases h with
  -- A sign belongs to the number behind it where an operand is expected.
  | @signed op w hop hw => simp [cut?, hop, hw]
  | closed h =>
      obtain ⟨hfirst, hbrackets⟩ := h
      -- A closed operand is not empty, and what it begins with opens no
      -- group.
      obtain ⟨x, tail, rfl⟩ := List.exists_cons_of_ne_nil
        (l := ls) (by rintro rfl; cases hfirst)
      obtain ⟨next, hnext, htail⟩ := Option.bind_eq_some_iff.1
        (enterAll_cons.symm.trans hbrackets)
      have hwithin := cut?_within [x] rest htail
      cases x with
      | word s | literal s | mark c =>
          cases hnext
          exact hwithin
      | opening b =>
          cases b with
          | cases =>
              cases hnext
              exact hwithin
          | round => cases hfirst
      | operator op => cases hfirst
      | closing b => cases hfirst

/-- Parts in brackets. -/
theorem group (h : Cuts ps) : Cuts (.opening :: (ps ++ [.closing])) := by
  intro rest _
  have hinner := h (.closing .round :: rest) (ends_closing rest)
  simp only [List.flatMap_cons, List.flatMap_append, List.flatMap_nil,
    Part.lexemes, List.append_nil, List.append_assoc, List.cons_append,
    List.nil_append]
  rw [cut?, hinner]
  simp [cut?, link?, Function.comp_def]

/-- Parts with an operator between them. -/
theorem join (hp : Cuts ps) (hq : Cuts qs) (op : Operator) :
    Cuts (ps ++ .operator op :: qs) := by
  intro rest hrest
  have hleft := hp (.operator op :: (qs.flatMap Part.lexemes ++ rest))
    (ends_operator op _)
  simp only [List.flatMap_cons, List.flatMap_append, Part.lexemes,
    List.append_assoc, List.cons_append, List.nil_append]
  rw [hleft, cut?]
  simp [link?, hq rest hrest, Function.comp_def]

end Cuts

/-! ### Texts and their parts -/

/-- A text and the parts that it is cut into. -/
structure HasParts (q : QuoteRule) (s : String)
    (ps : List (Part (List Lexeme))) : Prop where
  lexemes : HasLexemes q s (ps.flatMap Part.lexemes)
  cuts : Cuts ps
  balanced : Balanced (ps.flatMap Part.lexemes)

namespace HasParts

variable {q : QuoteRule} {s t : String} {ls : List Lexeme}
  {ps qs : List (Part (List Lexeme))}

/-- What is cut into parts closes all that it opens. -/
theorem enclosed (h : HasParts q s ps) : Enclosed q s :=
  ⟨_, h.lexemes, h.balanced⟩

/-- The text of an operand. -/
theorem operand (hs : HasLexemes q s ls) (h : Whole ls) :
    HasParts q s [.operand ls] where
  lexemes := by simpa [Part.lexemes] using hs
  cuts := .operand h
  balanced := by simpa [Part.lexemes] using h.balanced

/-- A text in brackets. -/
theorem group (h : HasParts q s ps) :
    HasParts q ("(" ++ s ++ ")") (.opening :: (ps ++ [.closing])) where
  lexemes := by
    have hopening : lead? "(" = some [.opening .round] := by decide
    have hclosing : constant? ")".toList = some [.closing .round] := by
      decide
    have hend : HasLexemes q (s ++ ")")
        (ps.flatMap Part.lexemes ++ [.closing .round]) :=
      h.lexemes.append (lexemes?_of_constant? hclosing) (by decide)
    rw [String.append_assoc]
    simpa [Part.lexemes] using Leads.of_lead? hopening hend
  cuts := h.cuts.group
  balanced := by simpa [Part.lexemes] using h.balanced.group

/-- An operator is written with blanks around it, so no operand runs into it.
-/
theorem lead?_operator (op : Operator) :
    lead? (" " ++ op.symbol ++ " ") = some [.operator op] ∧
      begins isSeam (" " ++ op.symbol ++ " ") = true := by
  cases op <;> decide

/-- Two texts with an operator between them. -/
theorem join (hs : HasParts q s ps) (ht : HasParts q t qs)
    (op : Operator) :
    HasParts q (op.between s t)
      (ps ++ .operator op :: qs) where
  lexemes := by
    obtain ⟨hlead, hseam⟩ := lead?_operator op
    have hbehind := hs.lexemes.append (Leads.of_lead? hlead ht.lexemes)
      (begins_append hseam)
    simpa [Part.lexemes, Operator.between, String.append_assoc] using hbehind
  cuts := hs.cuts.join ht.cuts op
  balanced := by
    simpa [Part.lexemes] using
      hs.balanced.append ((Balanced.operator op).append ht.balanced)

/-- A text has the parts that it is cut into. -/
theorem parts?_eq (h : HasParts q s ps) : parts? q s = some ps := by
  have hcut := h.cuts [] ends_nil
  rw [List.append_nil] at hcut
  have hlexemes : q.lexemes? s.toList = _ := h.lexemes
  rw [parts?, hlexemes]
  exact hcut.trans (by simp [cut?])

/-- A text is read as what its parts derive. -/
theorem arithmetic?_eq_some_iff (h : HasParts q s ps)
    {tree : Arithmetic (List Lexeme)} :
    arithmetic? q s = some tree ↔ Arithmetic.Derives .sum ps tree := by
  rw [arithmetic?, h.parts?_eq]
  exact Arithmetic.parse?_eq_some_iff

/-- The operators outside of the brackets are those of the parts. -/
theorem outerOperators?_eq (h : HasParts q s ps) :
    outerOperators? q s = some (outerOperators 0 ps) := by
  rw [outerOperators?, h.parts?_eq, Option.map_some]

end HasParts

/-! ### Texts at a level of the grammar -/

/-- The text stands at the level, and is read there as the operations. -/
def Written (q : QuoteRule) (s : String) (level : Level)
    (tree : Arithmetic (List Lexeme)) : Prop :=
  ∃ ps, HasParts q s ps ∧ Arithmetic.Derives level ps tree

namespace Written

variable {q : QuoteRule} {s t : String} {level : Level}
  {left right tree : Arithmetic (List Lexeme)}

/-- A text at any level may stand in a bracket. -/
theorem enclosed (h : Written q s level tree) : Enclosed q s :=
  let ⟨_, hparts, _⟩ := h
  hparts.enclosed

/-- The text of an operand is one at every level. -/
theorem operand {ls : List Lexeme} (hs : HasLexemes q s ls)
    (h : Whole ls) : Written q s level (.operand ls) :=
  ⟨_, .operand hs h, .ofPrimary (.operand ls)⟩

/-- What is one operand is a primary. -/
theorem exists_of_whole (h : WholeText q s) :
    ∃ tree, Written q s .primary tree :=
  let ⟨_, hls, hwhole⟩ := h
  ⟨_, .operand hls hwhole⟩

/-- A closed text is a primary, with itself as the operand. -/
theorem exists_of_closed (h : ClosedText q s) :
    ∃ tree, Written q s .primary tree :=
  exists_of_whole h.whole

/-- Brackets make a primary of any text. -/
theorem group (h : Written q s level tree) :
    Written q ("(" ++ s ++ ")") .primary tree :=
  let ⟨_, hparts, hderives⟩ := h
  ⟨_, hparts.group, .group hderives.sum⟩

/-- Where a primary may stand, no more is asked of it. -/
theorem ofPrimary (h : Written q s .primary tree) :
    Written q s level tree :=
  let ⟨ps, hparts, hderives⟩ := h
  ⟨ps, hparts, hderives.ofPrimary⟩

/-- A text at any level is a sum. -/
theorem sum (h : Written q s level tree) : Written q s .sum tree :=
  let ⟨ps, hparts, hderives⟩ := h
  ⟨ps, hparts, hderives.sum⟩

/-- An operator applies to the whole of what it stands between, where both
of that are at the levels that the grammar has there. -/
theorem join {op : Operator} (hs : Written q s op.level left)
    (ht : Written q t op.operandLevel right) :
    Written q (op.between s t) op.level
      (.operation op left right) :=
  let ⟨_, hsparts, hsderives⟩ := hs
  let ⟨_, htparts, htderives⟩ := ht
  ⟨_, hsparts.join htparts op, hsderives.join htderives⟩

/-- A text at any level is read. -/
theorem arithmetic?_eq (h : Written q s level tree) :
    arithmetic? q s = some tree :=
  let ⟨_, hparts, hderives⟩ := h
  hparts.arithmetic?_eq_some_iff.2 hderives.sum

/-- Outside of brackets a text has no operators but those of its
level. -/
theorem admits (h : Written q s level tree) {ops : List Operator}
    (hops : outerOperators? q s = some ops) :
    ∀ op ∈ ops, Arithmetic.Level.Admits level op := by
  obtain ⟨ps, hparts, hderives⟩ := h
  cases hops.symm.trans hparts.outerOperators?_eq
  exact hderives.admits

/-- A primary has no operators outside of brackets. -/
theorem outerOperators?_eq_nil (h : Written q s .primary tree) :
    outerOperators? q s = some [] := by
  obtain ⟨ps, hparts, hderives⟩ := h
  have hnone : outerOperators 0 ps = [] :=
    List.eq_nil_iff_forall_not_mem.2 fun op hop => hderives.admits op hop
  rw [hparts.outerOperators?_eq, hnone]

/-- Between primaries an operator is the only one outside of brackets. -/
theorem outerOperators?_join (hs : Written q s .primary left)
    (ht : Written q t .primary right) (op : Operator) :
    outerOperators? q (op.between s t) = some [op] := by
  have hsnone := hs.outerOperators?_eq_nil
  have htnone := ht.outerOperators?_eq_nil
  obtain ⟨ps, hsparts, hsderives⟩ := hs
  obtain ⟨qs, htparts, -⟩ := ht
  rw [hsparts.outerOperators?_eq, Option.some_inj] at hsnone
  rw [htparts.outerOperators?_eq, Option.some_inj] at htnone
  rw [(hsparts.join htparts op).outerOperators?_eq,
    hsderives.outerOperators_append, hsnone, outerOperators, htnone]
  rfl

/-- An operator between two texts makes a text that is read. -/
theorem exists_splice {level' : Level} (hs : Written q s level left)
    (ht : Written q t level' right) (op : Operator) :
    ∃ tree, Written q (op.between s t) .sum tree :=
  let ⟨_, hsparts, hsderives⟩ := hs
  let ⟨_, htparts, htderives⟩ := ht
  let ⟨tree, hboth⟩ := hsderives.exists_splice htderives op
  ⟨tree, _, hsparts.join htparts op, hboth⟩

/-- Brackets contain what stands in them. -/
theorem contains_group (h : Written q s level tree) :
    Contains q ("(" ++ s ++ ")") s := by
  obtain ⟨ps, hparts, -⟩ := h
  refine ⟨_, _, hparts.group.lexemes, hparts.lexemes, ?_⟩
  simpa [Part.lexemes] using List.infix_append [.opening .round]
    (ps.flatMap Part.lexemes) [.closing .round]

/-- Texts with an operator between them contain both of them. -/
theorem contains_join {level' : Level} (hs : Written q s level left)
    (ht : Written q t level' right) (op : Operator) :
    Contains q (op.between s t) s ∧
      Contains q (op.between s t) t := by
  obtain ⟨ps, hsparts, -⟩ := hs
  obtain ⟨qs, htparts, -⟩ := ht
  have hboth := (hsparts.join htparts op).lexemes
  constructor
  · refine ⟨_, _, hboth, hsparts.lexemes, List.IsPrefix.isInfix ?_⟩
    rw [List.flatMap_append]
    exact List.prefix_append _ _
  · refine ⟨_, _, hboth, htparts.lexemes, List.IsSuffix.isInfix ?_⟩
    rw [List.flatMap_append, List.flatMap_cons, ← List.append_assoc]
    exact List.suffix_append _ _

/-- An operator between two texts applies to the whole of both exactly
where each of them stands at the level that the grammar has there. -/
theorem arithmetic?_splice_iff {op : Operator} {level' : Level}
    {tree : Arithmetic (List Lexeme)} (hs : Written q s level left)
    (ht : Written q t level' tree) :
    arithmetic? q (op.between s t) =
        some (.operation op left right) ↔
      Written q s op.level left ∧ Written q t op.operandLevel right := by
  constructor
  · obtain ⟨ps, hsparts, hsderives⟩ := hs
    obtain ⟨qs, htparts, -⟩ := ht
    intro h
    have hboth := (hsparts.join htparts op).arithmetic?_eq_some_iff.1 h
    obtain ⟨hleft, hright⟩ := hsderives.split hboth
    exact ⟨⟨ps, hsparts, hleft⟩, qs, htparts, hright⟩
  · rintro ⟨hleft, hright⟩
    exact (hleft.join hright).arithmetic?_eq

/-- A text in brackets is read as it is without them. -/
theorem arithmetic?_group (h : Written q s level tree) :
    arithmetic? q ("(" ++ s ++ ")") = arithmetic? q s := by
  rw [h.group.arithmetic?_eq, h.arithmetic?_eq]

end Written

end SchemaEvolution.Sql

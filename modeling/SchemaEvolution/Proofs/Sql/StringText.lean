import SchemaEvolution.Proofs.Sql.AnsiArithmetic
import SchemaEvolution.Proofs.Sql.NuoDbArithmetic
import SchemaEvolution.Proofs.Sql.Strings

/-!
# `SchemaEvolution.Proofs.Sql.StringText`: texts that compute with strings

Lexemes are read in one pass, with the items of each bracket that is open.
What was read before some lexemes makes no difference to the items that they
are, if they close all brackets that they open, so that the values of lexemes
can be put together like the lexemes themselves.

* `QuoteRule.datum?`: the value of a text.
* `items?_append`, `items?_bracket`: lexemes are taken one part after the
  other, and a bracket as a whole.
* `Evaluates`, `OneOperand`, `HasArguments`, `Uncut`: what lexemes are where
  they stand in others.
* `OneOperand.call`, `OneOperand.choice`, `Evaluates.operation`,
  `Evaluates.concat`: the values of expressions from those of their parts.
* `Expr.datum?_nuoDb_string`, `Expr.datum?_integer`: constants have their own
  values.
-/

set_option autoImplicit false

namespace SchemaEvolution

namespace Sql

namespace Strings

/-! ### From lexemes to items -/

section Reader

variable (row : List Lexeme → Option Datum)

/-- The items that were read in the innermost bracket, and those before
each of the brackets that are open. -/
structure State where
  read : List Item := []
  outer : List (Bracket × List Item) := []

/-- Reads a lexeme. -/
def State.step? (s : State) : Lexeme → Option State
  | .opening b => some ⟨[], (b, s.read) :: s.outer⟩
  | .closing b =>
      match s.outer with
      | (b', before) :: outer =>
          if b = b' then some ⟨before ++ [closed row b s.read], outer⟩
          else none
      | [] => none
  | x => some ⟨s.read ++ [.leaf x], s.outer⟩

/-- The items of lexemes that close all brackets that they open. -/
def items? (ls : List Lexeme) : Option (List Item) :=
  match ls.foldlM (State.step? row) {} with
  | some ⟨items, []⟩ => some items
  | _ => none

/-- The value of lexemes. -/
def datum? (ls : List Lexeme) : Option Datum :=
  (items? row ls).bind (value? row)

end Reader

/-! ### Lexemes one part after the other -/

section Lexemes

variable {row : List Lexeme → Option Datum} {first s t : State} {x : Lexeme}
  {ls us : List Lexeme} {xs ys : List Item} {d e : Datum}

namespace State

/-- Where a reader stands that did not begin at the beginning, but behind
what it had read `first`. -/
def resume (first : State) (read : List Item) :
    List (Bracket × List Item) → State
  | [] => ⟨first.read ++ read, first.outer⟩
  | (b, before) :: outer =>
      let s := first.resume before outer
      ⟨read, (b, s.read) :: s.outer⟩

/-- What is read next is put behind what was read in the innermost bracket,
wherever reading began. -/
theorem resume_append (first : State) (read more : List Item)
    (outer : List (Bracket × List Item)) :
    first.resume (read ++ more) outer =
      ⟨(first.resume read outer).read ++ more,
        (first.resume read outer).outer⟩ := by
  cases outer <;> simp [resume]

/-- What was read first makes no difference to a step. -/
theorem step?_resume (first : State)
    (h : s.step? row x = some t) :
    (first.resume s.read s.outer).step? row x =
      some (first.resume t.read t.outer) := by
  obtain ⟨read, outer⟩ := s
  cases x with
  | opening b =>
      cases h
      rfl
  | closing b =>
      cases outer with
      | nil => cases h
      | cons level outer =>
          obtain ⟨b', before⟩ := level
          -- What was read first is before the bracket that closes.
          by_cases hb : b = b'
          · simp only [step?, if_pos hb, Option.some.injEq] at h
            subst h
            simp only [resume, step?, if_pos hb, resume_append]
          · simp [step?, hb] at h
  | word w | literal l | operator op | mark c =>
      cases h
      exact congrArg some (resume_append first read _ outer).symm

/-- Nor to a run. -/
theorem foldlM_resume (first : State) (h : ls.foldlM (step? row) s = some t) :
    ls.foldlM (step? row) (first.resume s.read s.outer) =
      some (first.resume t.read t.outer) := by
  induction ls generalizing s with
  | nil =>
      cases h
      rfl
  | cons x ls ih =>
      obtain ⟨next, hnext, h⟩ := Option.bind_eq_some_iff.1
        (List.foldlM_cons.symm.trans h)
      rw [List.foldlM_cons, step?_resume first hnext]
      exact ih h

end State

/-- Lexemes have items exactly if reading them ends with no bracket open. -/
theorem items?_eq_some_iff : items? row ls = some xs ↔
    ls.foldlM (State.step? row) {} = some ⟨xs, []⟩ := by
  rw [items?]
  split
  · next items hread => simp [hread]
  · next hread =>
      exact ⟨nofun, fun h => absurd h (hread xs)⟩

/-- Lexemes are read as these items wherever they stand. -/
theorem foldlM_of_items? (h : items? row ls = some xs) (first : State) :
    ls.foldlM (State.step? row) first =
      some ⟨first.read ++ xs, first.outer⟩ := by
  have hread := State.foldlM_resume first (items?_eq_some_iff.1 h)
  simpa [State.resume] using hread

/-- Lexemes are taken one part after the other. -/
theorem items?_append (hls : items? row ls = some xs)
    (hus : items? row us = some ys) :
    items? row (ls ++ us) = some (xs ++ ys) := by
  rw [items?_eq_some_iff, List.foldlM_append, items?_eq_some_iff.1 hls,
    Option.bind_eq_bind, Option.bind_some]
  exact foldlM_of_items? hus _

/-- A bracket is taken as a whole. -/
theorem items?_bracket (b : Bracket) (h : items? row ls = some xs) :
    items? row (.opening b :: (ls ++ [.closing b])) =
      some [closed row b xs] := by
  have hopen : State.step? row {} (.opening b) = some ⟨[], [(b, [])]⟩ := rfl
  have hread := foldlM_of_items? h ⟨[], [(b, [])]⟩
  rw [items?_eq_some_iff, List.foldlM_cons, hopen, Option.bind_eq_bind,
    Option.bind_some, List.foldlM_append, hread, Option.bind_eq_bind,
    Option.bind_some]
  simp [State.step?]

/-- The lexemes of a call. -/
def callLexemes (w : String) (ls : List Lexeme) : List Lexeme :=
  .word w :: .opening .round :: (ls ++ [.closing .round])

/-- A call is read as its name and one item for its brackets. -/
theorem items?_call (w : String) (h : items? row ls = some xs) :
    items? row (callLexemes w ls) =
      some [.leaf (.word w), closed row .round xs] := by
  have hname : items? row [.word w] = some [.leaf (.word w)] := rfl
  exact items?_append hname (items?_bracket .round h)

/-- The bars of a concatenation are two marks, which stay items of their own.
-/
theorem items?_concat (hls : items? row ls = some xs)
    (hus : items? row us = some ys) :
    items? row (ls ++ .mark '|' :: .mark '|' :: us) =
      some (xs ++ .bar :: .bar :: ys) := by
  have hbars : items? row [.mark '|', .mark '|'] = some [.bar, .bar] := rfl
  exact items?_append hls (items?_append hbars hus)

/-! ### The values of lexemes -/

/-- The lexemes have the value. -/
def Evaluates (row : List Lexeme → Option Datum) (ls : List Lexeme)
    (d : Datum) : Prop :=
  datum? row ls = some d

/-- The lexemes are one operand with the value. -/
def OneOperand (row : List Lexeme → Option Datum) (ls : List Lexeme)
    (d : Datum) : Prop :=
  ∃ items, items? row ls = some items ∧
    parts? row .before items = some [.operand d]

/-- The lexemes are arguments of a call. -/
def HasArguments (row : List Lexeme → Option Datum) (ls : List Lexeme)
    (args : List Argument) : Prop :=
  ∃ items, items? row ls = some items ∧ arguments row items = args

/-- The lexemes are not cut apart, whether or not they have a value. -/
def Uncut (row : List Lexeme → Option Datum) (ls : List Lexeme) : Prop :=
  ∃ items, items? row ls = some items ∧
    ∀ x ∈ items, x.separates = false

/-- Lexemes have a value exactly if they have items and these have it. -/
theorem evaluates_iff : Evaluates row ls d ↔
    ∃ items, items? row ls = some items ∧ value? row items = some d :=
  Option.bind_eq_some_iff

/-- No keyword and no mark but a bar stands outside of the brackets of what
has a value. -/
theorem Evaluates.uncut (h : Evaluates row ls d) : Uncut row ls :=
  let ⟨items, hitems, hvalue⟩ := evaluates_iff.1 h
  ⟨items, hitems, not_separates_of_value? hvalue⟩

/-- One operand is a whole by itself, of the same value. -/
theorem OneOperand.evaluates (h : OneOperand row ls d) : Evaluates row ls d :=
  let ⟨items, hitems, hparts⟩ := h
  evaluates_iff.2 ⟨items, hitems, value?_of_parts? hparts⟩

namespace HasArguments

/-- What has a value is an argument without a type. -/
theorem value (h : Evaluates row ls d) : HasArguments row ls [.value d] := by
  obtain ⟨items, hitems, hvalue⟩ := evaluates_iff.1 h
  refine ⟨items, hitems, ?_⟩
  rw [arguments_singleton (comma_notMem (not_separates_of_value? hvalue)),
    argument_of_value? hvalue]

/-- The argument of a cast is what has a value and the name of a type, which
no keyword is. -/
theorem typed {type : String} (h : Evaluates row ls d)
    (htype : Keyword.ofText? type = none) :
    HasArguments row (ls ++ [.word "AS", .word type]) [.typed d type] := by
  obtain ⟨items, hitems, hvalue⟩ := evaluates_iff.1 h
  have hcomma := comma_notMem (not_separates_of_value? hvalue)
  refine ⟨_, items?_append hitems rfl, ?_⟩
  rw [arguments_singleton (by simpa [Item.comma] using hcomma)]
  exact congrArg (fun a => [a]) (argument_typed hvalue htype)

/-- An argument is put in front of others by a comma. -/
theorem cons {args : List Argument} (h : Evaluates row ls d)
    (hargs : HasArguments row us args) :
    HasArguments row (ls ++ .mark ',' :: us) (.value d :: args) := by
  obtain ⟨items, hitems, hvalue⟩ := evaluates_iff.1 h
  obtain ⟨others, hothers, rfl⟩ := hargs
  have hcomma : items? row [.mark ','] = some [.comma] := rfl
  exact ⟨_, items?_append hitems (items?_append hcomma hothers),
    arguments_cons hvalue others⟩

end HasArguments

namespace OneOperand

/-- A string literal is an operand, with its text as the value. -/
theorem literal (s : String) : OneOperand row [.literal s] (.text s) :=
  ⟨[.leaf (.literal s)], rfl, rfl⟩

/-- A number is one as well, unless the word is a keyword of the reader. -/
theorem number {w : String} {n : Nat} (hword : Keyword.ofText? w = none)
    (h : naturalNumber? w = some n) :
    OneOperand row [.word w] (.number n) := by
  refine ⟨[.leaf (.word w)], rfl, ?_⟩
  simp [parts?, Item.datum?, hword, h]

/-- The call of a function that is computed. -/
theorem call {w : String} {f : StringFunction} {args : List Argument}
    (hword : Keyword.ofText? w = none)
    (hf : StringFunction.ofText? w = some f)
    (hargs : HasArguments row ls args) (h : f.result? args = some d) :
    OneOperand row (callLexemes w ls) d := by
  obtain ⟨items, hitems, rfl⟩ := hargs
  refine ⟨_, items?_call w hitems, ?_⟩
  simp [parts?, closed, call?, hword, hf, h]

/-- The choice between two values, of which only the chosen one need be
there. -/
theorem choice {test : Comparison} (htest : test ≠ .like) {r : Datum}
    {rs ys ns : List Lexeme} {c : Bool} (hl : Evaluates row ls d)
    (hr : Evaluates row rs e) (hc : holdsDatum? test d e = some c)
    (hyes : Uncut row ys) (hno : Uncut row ns)
    (h : Evaluates row (if c then ys else ns) r) :
    OneOperand row (.opening .cases :: (.word "WHEN" :: (ls ++
      (test.symbol.toList.map .mark ++ (rs ++ .word "THEN" ::
        (ys ++ .word "ELSE" :: ns)))) ++ [.closing .cases])) r := by
  obtain ⟨left, hleft, hlvalue⟩ := evaluates_iff.1 hl
  obtain ⟨right, hright, hrvalue⟩ := evaluates_iff.1 hr
  obtain ⟨yes, hyesItems, hyesNone⟩ := hyes
  obtain ⟨no, hnoItems, hnoNone⟩ := hno
  -- The items of the whole are those of its parts with the keywords between
  -- them.
  have hword : ∀ w, items? row [.word w] = some [.leaf (.word w)] :=
    fun _ => rfl
  have hsigns : items? row (test.symbol.toList.map .mark) =
      some (signs test) := by
    cases test <;> rfl
  have hitems := items?_append (hword "WHEN") (items?_append hleft
    (items?_append hsigns (items?_append hright (items?_append (hword "THEN")
      (items?_append hyesItems (items?_append (hword "ELSE") hnoItems))))))
  -- Only the branch that is chosen need have a value. The other one is cut
  -- apart in the right places by `Uncut`.
  have hchosen : (if c then value? row yes else value? row no) = some r := by
    obtain ⟨items, hchosen, hvalue⟩ := evaluates_iff.1 h
    cases c with
    | true =>
        obtain rfl := Option.some.inj (hyesItems.symm.trans hchosen)
        exact hvalue
    | false =>
        obtain rfl := Option.some.inj (hnoItems.symm.trans hchosen)
        exact hvalue
  have hcases := cases?_choice htest hlvalue hrvalue hc hyesNone hnoNone
  refine ⟨_, items?_bracket .cases hitems, ?_⟩
  simp only [List.singleton_append, closed, hcases, hchosen]
  rfl

end OneOperand

/-- A sum or a difference takes what stands before it as a whole and one
operand behind it. -/
theorem Evaluates.operation {v w r : Value} {op : Operator}
    (hop : op.level = .sum) (hl : Evaluates row ls (.scalar v))
    (hr : OneOperand row us (.scalar w)) (h : op.value? v w = some r) :
    Evaluates row (ls ++ .operator op :: us) (.scalar r) := by
  obtain ⟨items, hitems, hvalue⟩ := evaluates_iff.1 hl
  obtain ⟨others, hothers, hparts⟩ := hr
  have hoperator : items? row [.operator op] = some [.leaf (.operator op)] :=
    rfl
  exact evaluates_iff.2 ⟨_, items?_append hitems
    (items?_append hoperator hothers), value?_operation hop hvalue hparts h⟩

/-- Bars do not cut apart what they stand between. -/
theorem Uncut.concat (hl : Uncut row ls) (hr : Uncut row us) :
    Uncut row (ls ++ .mark '|' :: .mark '|' :: us) := by
  obtain ⟨items, hitems, hnone⟩ := hl
  obtain ⟨others, hothers, hnone'⟩ := hr
  have hbar : Item.bar.separates = false := by decide
  exact ⟨_, items?_concat hitems hothers, List.forall_mem_append.2
    ⟨hnone, List.forall_mem_cons.2 ⟨hbar, List.forall_mem_cons.2
      ⟨hbar, hnone'⟩⟩⟩⟩

/-- Concatenation is between wholes: both sides may hold operators of their
own. -/
theorem Evaluates.concat {s t : String} (hl : Evaluates row ls (.text s))
    (hr : Evaluates row us (.text t)) :
    Evaluates row (ls ++ .mark '|' :: .mark '|' :: us) (.text (s ++ t)) := by
  obtain ⟨items, hitems, hvalue⟩ := evaluates_iff.1 hl
  obtain ⟨others, hothers, hvalue'⟩ := evaluates_iff.1 hr
  exact evaluates_iff.2 ⟨_, items?_concat hitems hothers,
    value?_concat hvalue hvalue'⟩

/-- A call is not cut apart, whatever it is given. -/
theorem Uncut.call {w : String} {args : List Argument}
    (hword : Keyword.ofText? w = none) (h : HasArguments row ls args) :
    Uncut row (callLexemes w ls) := by
  obtain ⟨items, hitems, -⟩ := h
  refine ⟨_, items?_call w hitems, ?_⟩
  simp [closed, Item.separates, Item.mark?, Item.keyword?, hword]

end Lexemes

/-! ### The values of constants -/

section Constants

variable {row : List Lexeme → Option Datum}

/-- A number is no keyword. -/
theorem Keyword.ofText?_of_isNumber {w : String} (h : isNumber w = true) :
    Keyword.ofText? w = none := by
  refine Option.eq_none_iff_forall_ne_some.2 fun k hk => ?_
  have hk : w.toList.map Char.toUpper = k.text.toList := by
    simpa using List.find?_some hk
  obtain ⟨c, hc, hdigit⟩ := (Option.any_eq_true _ _).1 h
  have hfirst : k.text.toList.head? = some c := by
    rw [← hk, List.head?_map, hc, Option.map_some,
      toUpper_of_isDigit hdigit]
  have hletter : k.text.toList.head?.any Char.isDigit = false := by
    cases k <;> decide
  rw [hfirst, Option.any_some, hdigit] at hletter
  cases hletter

/-- The lexemes of an integer have it for their value. -/
theorem OneOperand.integer (i : Int) :
    OneOperand row (integerLexemes i) (.number i) := by
  have hword : ∀ n : Nat, Keyword.ofText? (toString n) = none :=
    fun n => Keyword.ofText?_of_isNumber (hasLexemes_nat (q := .doubled) n).1
  cases i with
  | ofNat n => exact .number (hword n) (naturalNumber?_toString n)
  | negSucc n =>
      have hvalue : Item.datum? row (.leaf (.word (toString (n + 1)))) =
          some (.number (n + 1 : Nat)) := by
        rw [Item.datum?, hword, naturalNumber?_toString]
        rfl
      refine ⟨[.leaf (.operator .minus), .leaf (.word (toString (n + 1)))],
        rfl, ?_⟩
      rw [parts?, hvalue]
      rfl

/-- A chain has the string for its value that it stands for. -/
theorem evaluates_chainTokens {terms : List NuoDb.Term} (h : terms ≠ []) :
    Evaluates row (lexemesFrom [] (NuoDb.chainTokens terms))
      (.text (String.ofList (terms.flatMap NuoDb.Term.value))) := by
  have hterm : ∀ t : NuoDb.Term,
      OneOperand row (lexemesFrom [] t.tokens)
        (.text (String.ofList t.value)) := by
    intro t
    cases t with
    | string s => exact .literal _
    | trimmedBackslash =>
        have htrim : StringFunction.ofText? "TRIM" = some .trim := by decide
        exact .call (by decide) htrim
          (.value (OneOperand.literal "\\ ").evaluates) (by decide)
  induction terms with
  | nil => exact absurd rfl h
  | cons t rest ih =>
      cases rest with
      | nil => simpa [NuoDb.chainTokens] using (hterm t).evaluates
      | cons u rest =>
          have hrest := ih (List.cons_ne_nil u rest)
          rw [NuoDb.lexemesFrom_chainTokens, List.flatMap_cons,
            String.ofList_append]
          simpa using (hterm t).evaluates.concat hrest

end Constants

end Strings

/-! ### Texts -/

/-- The value of a text. -/
def QuoteRule.datum? (q : QuoteRule)
    (row : List Lexeme → Option Strings.Datum) (s : String) :
    Option Strings.Datum :=
  (q.lexemes? s.toList).bind (Strings.datum? row)

/-- A text has the value of its lexemes. -/
theorem QuoteRule.datum?_eq_some_iff {q : QuoteRule}
    {row : List Lexeme → Option Strings.Datum} {s : String}
    {d : Strings.Datum} : q.datum? row s = some d ↔
      ∃ ls, HasLexemes q s ls ∧ Strings.Evaluates row ls d :=
  Option.bind_eq_some_iff

example : QuoteRule.doubled.datum? (fun _ => none)
    "CASE WHEN 2 * (3 - -1) <> 8 THEN 'a' ELSE 'b' || TRIM(' c ') END" =
      some (.text "bc") := by
  decide +kernel

end Sql

open SchemaEvolution.Sql
open SchemaEvolution.Sql.Strings

/-- The value of what a dialect writes for an expression. -/
def Expr.datum? (e : Expr) (dialect : Dialect) (q : QuoteRule)
    (row : List Lexeme → Option Datum) : Option Datum :=
  (dialect.exprText e).toOption.bind (q.datum? row)

namespace Expr

variable {e : Expr} {dialect : Dialect} {q : QuoteRule}
  {row : List Lexeme → Option Datum} {d : Datum}

/-- An expression has a value if it is written and its text has it. -/
theorem datum?_eq_some_iff : e.datum? dialect q row = some d ↔
    ∃ text ls, dialect.exprText e = .ok text ∧ HasLexemes q text ls ∧
      Evaluates row ls d := by
  rw [datum?]
  cases htext : dialect.exprText e with
  | error err => simp [Except.toOption]
  | ok text => simp [Except.toOption, QuoteRule.datum?_eq_some_iff]

/-- A string of NuoDB has its own value, however it is cut. -/
theorem datum?_nuoDb_string (s : String) :
    (Expr.literal (.string s)).datum? .nuoDb .escaped row =
      some (.text s) := by
  have hvalue : Evaluates row _ _ :=
    evaluates_chainTokens (NuoDb.terms_ne_nil [] s.toList)
  rw [NuoDb.flatMap_value_terms, List.nil_append, String.ofList_toList]
    at hvalue
  exact datum?_eq_some_iff.2
    ⟨_, _, rfl, NuoDb.hasLexemes_string s, hvalue⟩

/-- A string of standard SQL has its own value. -/
theorem datum?_ansi_string (s : String) :
    (Expr.literal (.string s)).datum? .ansi .doubled row =
      some (.text s) :=
  datum?_eq_some_iff.2
    ⟨_, _, rfl, hasLexemes_ansi_string s, (OneOperand.literal s).evaluates⟩

/-- An integer has its own value. -/
theorem datum?_integer {i : Int64}
    (h : dialect.exprText (.literal (.integer i)) = .ok (toString i.toInt)) :
    (Expr.literal (.integer i)).datum? dialect q row =
      some (.number i.toInt) :=
  datum?_eq_some_iff.2
    ⟨_, _, h, hasLexemes_integer _, (OneOperand.integer _).evaluates⟩

end Expr

end SchemaEvolution

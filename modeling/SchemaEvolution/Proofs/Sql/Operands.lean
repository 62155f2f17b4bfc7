import SchemaEvolution.Proofs.Sql.Arithmetic
import SchemaEvolution.Proofs.Sql.Lexemes

/-!
# `SchemaEvolution.Proofs.Sql.Operands`: texts that arithmetic cannot enter

What is written for an expression may hold any operators, as long as they
stand in brackets that it opens and closes itself: then no operator beside
it can get at a part of it. Such a text is closed. A number with a sign is
an operand as well, since the sign belongs to the number.

Most expressions are written by filling the holes of a template. Whether
that is closed hangs on the constants alone, provided that each hole
stands in some bracket of theirs and that the text in it keeps to its own
brackets. So a template is closed by evaluation, with one lemma for all of
them.

* `Closed`, `Whole`: the lexemes of an operand.
* `Balanced`, `Enclosed`: what may stand in a bracket.
* `splices_fill`: a template is closed when its constants are, and
  contains what is in its holes.
* `Enclosed.intercalate`, `ClosedText.intercalate`: texts in a row.
-/

set_option autoImplicit false

namespace SchemaEvolution.Sql

open SchemaEvolution.Text

/-! ### Brackets that are open -/

/-- The brackets that are open behind a lexeme, the innermost first.
Outside of brackets no operator may stand, and nothing can be closed. -/
def enter? : List Bracket → Lexeme → Option (List Bracket)
  | stack, .opening b => some (b :: stack)
  | b :: stack, .closing b' => if b = b' then some stack else none
  | [], .closing _ => none
  | [], .operator _ => none
  | stack, _ => some stack

/-- The brackets that are open behind lexemes. -/
def enterAll (stack : List Bracket) (ls : List Lexeme) :
    Option (List Bracket) :=
  ls.foldlM enter? stack

/-- Whether a lexeme can begin an operand. A round bracket cannot: it
begins a group. -/
def Lexeme.startsOperand : Lexeme → Bool
  | .word _ | .literal _ | .mark _ | .opening .cases => true
  | .operator _ | .opening .round | .closing _ => false

/-- Whether a lexeme means nothing to arithmetic. -/
def Lexeme.isMark : Lexeme → Bool
  | .mark _ => true
  | _ => false

/-- Whether a word is a number. -/
def isNumber (s : String) : Bool := s.toList.head?.any Char.isDigit

/-- The lexemes begin an operand and close all that they open, with no
operator outside of that. -/
structure Closed (ls : List Lexeme) : Prop where
  first : ls.head?.any Lexeme.startsOperand = true
  brackets : enterAll [] ls = some []

/-- The lexemes are one operand: closed, or a number with a sign. -/
inductive Whole : List Lexeme → Prop where
  | closed {ls : List Lexeme} : Closed ls → Whole ls
  | signed {op : Operator} {w : String} : op.level = .sum →
      isNumber w = true → Whole [.operator op, .word w]

/-- The lexemes may stand in a bracket: they close all that they open, and
nothing else. -/
def Balanced (ls : List Lexeme) : Prop :=
  ∀ b stack, enterAll (b :: stack) ls = some (b :: stack)

section Rules

variable {stack stack' : List Bracket} {ls us vs : List Lexeme}

/-- Lexemes are entered one part after the other, with the brackets that the
first part left open. -/
theorem enterAll_append :
    enterAll stack (ls ++ us) =
      (enterAll stack ls).bind fun stack' => enterAll stack' us :=
  List.foldlM_append

/-- The same with one lexeme as the first part. -/
theorem enterAll_cons {x : Lexeme} :
    enterAll stack (x :: ls) =
      (enter? stack x).bind fun stack' => enterAll stack' ls :=
  List.foldlM_cons

/-- What may follow in some brackets may follow in more of them. -/
theorem enter?_append {x : Lexeme} (outer : List Bracket)
    (h : enter? stack x = some stack') :
    enter? (stack ++ outer) x = some (stack' ++ outer) := by
  -- A lexeme looks at no more than the innermost bracket.
  cases x with
  | opening b =>
      cases h
      rfl
  | closing b' =>
      cases stack with
      | nil => cases h
      | cons b stack =>
          rw [enter?] at h
          split at h
          · next hb =>
              cases h
              exact if_pos hb
          · cases h
  | operator op =>
      cases stack with
      | nil => cases h
      | cons b stack =>
          cases h
          rfl
  | word s | literal s | mark c =>
      cases stack <;> cases h <;> cases outer <;> rfl

/-- A run that goes through in some brackets goes through in more of them and
leaves these open. -/
theorem enterAll_outer (outer : List Bracket)
    (h : enterAll stack ls = some stack') :
    enterAll (stack ++ outer) ls = some (stack' ++ outer) := by
  induction ls generalizing stack with
  | nil =>
      cases h
      rfl
  | cons x rest ih =>
      rw [enterAll_cons] at h ⊢
      obtain ⟨next, hnext, hrest⟩ := Option.bind_eq_some_iff.1 h
      rw [enter?_append outer hnext]
      exact ih hrest

/-- Marks may stand anywhere. -/
theorem enterAll_marks (h : ls.all Lexeme.isMark = true) :
    enterAll stack ls = some stack := by
  induction ls with
  | nil => rfl
  | cons x rest ih =>
      rw [List.all_cons, Bool.and_eq_true] at h
      cases x with
      | mark c =>
          rw [enterAll_cons]
          cases stack <;> exact ih h.2
      | _ => cases h.1

namespace Balanced

/-- A bracket may be empty. -/
theorem nil : Balanced [] := fun _ _ => rfl

/-- What may stand in a bracket may stand there in a row. -/
theorem append (hl : Balanced ls) (hu : Balanced us) :
    Balanced (ls ++ us) := by
  intro b stack
  rw [enterAll_append, hl]
  exact hu b stack

/-- An operator may stand in a bracket, though not outside of one. -/
theorem operator (op : Operator) : Balanced [.operator op] :=
  fun _ _ => rfl

/-- So may a word. -/
theorem word (s : String) : Balanced [.word s] := fun _ _ => rfl

/-- So may a literal, whatever is in it. -/
theorem literal (s : String) : Balanced [.literal s] := fun _ _ => rfl

/-- So may a call's round brackets with what may stand in them. -/
theorem group (h : Balanced ls) :
    Balanced (.opening .round :: (ls ++ [.closing .round])) := by
  intro b stack
  rw [enterAll_cons, enter?, Option.bind_some, enterAll_append, h]
  rfl

/-- So may the marks between arguments. -/
theorem marks (h : ls.all Lexeme.isMark = true) : Balanced ls :=
  fun _ _ => enterAll_marks h

end Balanced

namespace Closed

/-- What is closed outside of all brackets is so in one. -/
theorem balanced (h : Closed ls) : Balanced ls :=
  fun b stack => enterAll_outer (b :: stack) h.brackets

/-- A word is an operand by itself. -/
theorem word (s : String) : Closed [.word s] := ⟨rfl, rfl⟩

/-- So is a literal, whatever is in it. -/
theorem literal (s : String) : Closed [.literal s] := ⟨rfl, rfl⟩

/-- Marks may stand between closed lexemes. -/
theorem join (hl : Closed ls) (hu : us.all Lexeme.isMark = true)
    (hv : Closed vs) : Closed (ls ++ us ++ vs) := by
  constructor
  · obtain ⟨x, hx, hstart⟩ := (Option.any_eq_true _ _).1 hl.first
    simp [List.head?_append, hx, hstart]
  · rw [enterAll_append, enterAll_append, hl.brackets, Option.bind_some,
      enterAll_marks hu, Option.bind_some, hv.brackets]

end Closed

/-- An operand may stand in a bracket. -/
theorem Whole.balanced (h : Whole ls) : Balanced ls := by
  cases h with
  | closed h => exact h.balanced
  | signed _ _ => exact (Balanced.operator _).append (.word _)

end Rules

/-! ### Texts -/

/-- The text may stand in a bracket. -/
def Enclosed (q : QuoteRule) (s : String) : Prop :=
  ∃ ls, HasLexemes q s ls ∧ Balanced ls

/-- The text is closed. -/
def ClosedText (q : QuoteRule) (s : String) : Prop :=
  ∃ ls, HasLexemes q s ls ∧ Closed ls

/-- The text is one operand. -/
def WholeText (q : QuoteRule) (s : String) : Prop :=
  ∃ ls, HasLexemes q s ls ∧ Whole ls

section Texts

variable {q : QuoteRule} {s : String}

/-- A closed text needs no bracket to be one operand. -/
theorem ClosedText.whole (h : ClosedText q s) : WholeText q s :=
  let ⟨ls, hls, hclosed⟩ := h
  ⟨ls, hls, .closed hclosed⟩

/-- What is one operand may be an argument of a call. -/
theorem WholeText.enclosed (h : WholeText q s) : Enclosed q s :=
  let ⟨ls, hls, hwhole⟩ := h
  ⟨ls, hls, hwhole.balanced⟩

/-- A closed text may be one as well. -/
theorem ClosedText.enclosed (h : ClosedText q s) : Enclosed q s :=
  h.whole.enclosed

/-- Whether a constant is closed by itself. -/
def isClosedConstant (s : String) : Bool :=
  match constant? s.toList with
  | some ls =>
      ls.head?.any Lexeme.startsOperand && enterAll [] ls = some []
  | none => false

/-- The constants of a dialect are checked by computation. -/
theorem closed_constant (h : isClosedConstant s = true) :
    ClosedText q s := by
  unfold isClosedConstant at h
  split at h
  · next ls hls =>
      rw [Bool.and_eq_true, decide_eq_true_eq] at h
      exact ⟨ls, lexemes?_of_constant? hls, h.1, h.2⟩
  · cases h

/-- The text is empty, and so it may stand in a bracket. -/
theorem Enclosed.empty : Enclosed q "" :=
  ⟨[], q.lexemes?_nil, .nil⟩

end Texts

/-! ### Templates -/

/-- A text with texts in its holes: what stands before the first hole, the
texts, and what stands behind each of them. -/
def fill (s : String) : List String → List String → String
  | t :: texts, c :: behind => fill (s ++ t ++ c) texts behind
  | _, _ => s

/-- Whether the constants behind the holes of a template close all that is
open, when each hole stands in a bracket. -/
def closes : List Bracket → List String → Bool
  | [], _ | _ :: _, [] => false
  | stack, [c] =>
      begins isSeam c &&
        ((constant? c.toList).bind fun ls => enterAll stack ls) = some []
  | stack, c :: cs =>
      begins isSeam c &&
        match (lead? c).bind fun ls => enterAll stack ls with
        | some stack => closes stack cs
        | none => false

/-- Whether a template with these constants closes all that it opens, and
has its holes in between. -/
def isTemplate (c : String) (cs : List String) : Bool :=
  match (lead? c).bind fun ls => enterAll [] ls with
  | some stack => closes stack cs
  | none => false

/-- Whether a constant begins an operand. -/
def startsOperand (c : String) : Bool :=
  (lead? c).any fun ls => ls.head?.any Lexeme.startsOperand

/-- The lexemes of the one text stand in a row among those of the
other. -/
def Contains (q : QuoteRule) (s t : String) : Prop :=
  ∃ ls us, HasLexemes q s ls ∧ HasLexemes q t us ∧ us <:+: ls

section Templates

variable {q : QuoteRule} {c r s t : String} {behind texts : List String}

/-- Every text that has lexemes has itself as a part. -/
theorem Enclosed.contains_self (h : Enclosed q s) : Contains q s s :=
  let ⟨ls, hls, _⟩ := h
  ⟨ls, ls, hls, hls, List.infix_refl ls⟩

/-- What a part contains, the whole contains: lexemes in a row stay in a row.
-/
theorem Contains.trans (hr : Contains q r s) (hs : Contains q s t) :
    Contains q r t := by
  obtain ⟨ls, us, hls, hus, hinfix⟩ := hr
  obtain ⟨us', vs, hus', hvs, hinfix'⟩ := hs
  obtain rfl : us = us' := Option.some.inj (hus.symm.trans hus')
  exact ⟨ls, vs, hls, hvs, hinfix'.trans hinfix⟩

/-- The holes of a template are filled one by one, from the first. -/
theorem enterAll_fill {ls : List Lexeme} {stack : List Bracket}
    (hs : Leads q s ls) (hstack : enterAll [] ls = some stack)
    (hlength : texts.length = behind.length)
    (hcloses : closes stack behind = true)
    (htexts : ∀ t ∈ texts, Enclosed q t) :
    ∃ us, HasLexemes q (fill s texts behind) (ls ++ us) ∧
      enterAll [] (ls ++ us) = some [] ∧
      ∀ t ∈ texts, ∃ vs, HasLexemes q t vs ∧ vs <:+: ls ++ us := by
  induction texts generalizing s ls stack behind with
  | nil =>
      obtain rfl := List.eq_nil_of_length_eq_zero hlength.symm
      cases stack <;> cases hcloses
  | cons t texts ih =>
      obtain ⟨⟨us, hus, hbalanced⟩, hrest⟩ := List.forall_mem_cons.1 htexts
      cases stack with
      | nil => simp [closes] at hcloses
      | cons b stack =>
          have hopen : enterAll [] (ls ++ us) = some (b :: stack) := by
            rw [enterAll_append, hstack]
            exact hbalanced b stack
          match behind, hlength, hcloses with
          | [c], hlength, hcloses =>
              -- Behind the last hole everything is closed.
              obtain rfl : texts = [] :=
                List.eq_nil_of_length_eq_zero (Nat.succ.inj hlength)
              simp only [closes, Bool.and_eq_true, decide_eq_true_eq]
                at hcloses
              obtain ⟨hseam, hlast⟩ := hcloses
              obtain ⟨vs, hvs, hclosed⟩ := Option.bind_eq_some_iff.1 hlast
              refine ⟨us ++ vs, ?_, ?_, ?_⟩
              · have hc : HasLexemes q c vs := lexemes?_of_constant? hvs
                have hall := hs (hus.append hc hseam)
                rwa [← String.append_assoc] at hall
              · rw [← List.append_assoc, enterAll_append, hopen]
                exact hclosed
              · rw [List.forall_mem_singleton, ← List.append_assoc]
                exact ⟨us, hus, List.infix_append ls us vs⟩
          | c :: d :: behind, hlength, hcloses =>
              simp only [closes, Bool.and_eq_true] at hcloses
              obtain ⟨hseam, hmore⟩ := hcloses
              split at hmore
              · next stack' hstack' =>
                  obtain ⟨vs, hvs, hnext⟩ :=
                    Option.bind_eq_some_iff.1 hstack'
                  have hall : enterAll [] (ls ++ us ++ vs) =
                      some stack' := by
                    rw [enterAll_append, hopen]
                    exact hnext
                  obtain ⟨ws, hws, hclosed, hothers⟩ :=
                    ih (hs.append hus hvs hseam) hall
                      (Nat.succ.inj hlength) hmore hrest
                  have hassoc : ls ++ us ++ vs ++ ws =
                      ls ++ us ++ (vs ++ ws) := List.append_assoc _ _ _
                  rw [hassoc, List.append_assoc] at hws hclosed
                  refine ⟨_, hws, hclosed, List.forall_mem_cons.2 ⟨?_, ?_⟩⟩
                  · rw [← List.append_assoc]
                    exact ⟨us, hus, List.infix_append ls us (vs ++ ws)⟩
                  · rw [← List.append_assoc, ← hassoc]
                    exact hothers
              · cases hmore

/-- What a template is, when it is filled. -/
theorem exists_fill (hlength : texts.length = behind.length)
    (hc : isTemplate c behind = true)
    (htexts : ∀ t ∈ texts, Enclosed q t) :
    ∃ ls us, lead? c = some ls ∧
      HasLexemes q (fill c texts behind) (ls ++ us) ∧
      enterAll [] (ls ++ us) = some [] ∧
      ∀ t ∈ texts, ∃ vs, HasLexemes q t vs ∧ vs <:+: ls ++ us := by
  unfold isTemplate at hc
  split at hc
  · next stack hstack =>
      obtain ⟨ls, hls, hopen⟩ := Option.bind_eq_some_iff.1 hstack
      obtain ⟨us, hus⟩ :=
        enterAll_fill (Leads.of_lead? hls) hopen hlength hc htexts
      exact ⟨ls, us, hls, hus⟩
  · cases hc

/-- A template contains what is in its holes. -/
theorem contains_fill (c : String) (behind texts : List String)
    (hlength : texts.length = behind.length)
    (hc : isTemplate c behind = true)
    (htexts : ∀ t ∈ texts, Enclosed q t) :
    ∀ t ∈ texts, Contains q (fill c texts behind) t := by
  obtain ⟨ls, us, -, hfill, -, hholes⟩ := exists_fill hlength hc htexts
  intro t ht
  obtain ⟨vs, hvs, hinfix⟩ := hholes t ht
  exact ⟨_, vs, hfill, hvs, hinfix⟩

/-- The text is closed, and contains others. -/
structure Splices (q : QuoteRule) (s : String) (holes : List String) :
    Prop where
  closed : ClosedText q s
  contains : ∀ t ∈ holes, Contains q s t

/-- A template is closed when its constants are. -/
theorem splices_fill (c : String) (behind texts : List String)
    (hlength : texts.length = behind.length)
    (hc : isTemplate c behind = true) (hfirst : startsOperand c = true)
    (htexts : ∀ t ∈ texts, Enclosed q t) :
    Splices q (fill c texts behind) texts where
  closed := by
    obtain ⟨ls, us, hls, hfill, hclosed, -⟩ := exists_fill hlength hc htexts
    refine ⟨_, hfill, ?_, hclosed⟩
    rw [startsOperand, hls, Option.any_some] at hfirst
    obtain ⟨x, hx, hstart⟩ := (Option.any_eq_true _ _).1 hfirst
    simp [List.head?_append, hx, hstart]
  contains := contains_fill c behind texts hlength hc htexts

end Templates

/-! ### Texts in a row -/

section Rows

variable {q : QuoteRule} {c s t : String} {us : List Lexeme}
  {texts : List String}

/-- Texts with a constant between them may stand in a bracket if all of
them may. -/
theorem Enclosed.between (hs : Enclosed q s) (hc : lead? c = some us)
    (hseam : begins isSeam c = true) (hus : Balanced us)
    (ht : Enclosed q t) : Enclosed q (s ++ c ++ t) := by
  obtain ⟨ls, hls, hbalanced⟩ := hs
  obtain ⟨vs, hvs, hbalanced'⟩ := ht
  have hall := hls.append (Leads.of_lead? hc hvs) (begins_append hseam)
  rw [← String.append_assoc] at hall
  exact ⟨_, hall, hbalanced.append (hus.append hbalanced')⟩

/-- A text with a constant behind it may stand in a bracket if both of them
may. -/
theorem Enclosed.before (hs : Enclosed q s)
    (hc : constant? c.toList = some us) (hseam : begins isSeam c = true)
    (hus : Balanced us) : Enclosed q (s ++ c) :=
  let ⟨_, hls, hbalanced⟩ := hs
  ⟨_, hls.append (lexemes?_of_constant? hc) hseam, hbalanced.append hus⟩

/-- The lexemes of texts with a separator between them. -/
theorem hasLexemes_row {t u : String} {ls vs : List Lexeme}
    (hc : lead? c = some us) (hseam : begins isSeam c = true)
    (ht : HasLexemes q t ls)
    (hrest : HasLexemes q (c.intercalate (u :: texts)) vs) :
    HasLexemes q (c.intercalate (t :: u :: texts)) (ls ++ (us ++ vs)) := by
  rw [String.intercalate_cons_cons, String.append_assoc]
  exact ht.append (Leads.of_lead? hc hrest) (begins_append hseam)

/-- Closed texts with marks between them are closed. -/
theorem ClosedText.between (hs : ClosedText q s) (hc : lead? c = some us)
    (hseam : begins isSeam c = true) (hmarks : us.all Lexeme.isMark = true)
    (ht : ClosedText q t) : ClosedText q (s ++ c ++ t) := by
  obtain ⟨ls, hls, hclosed⟩ := hs
  obtain ⟨vs, hvs, hclosed'⟩ := ht
  have hall := hls.append (Leads.of_lead? hc hvs) (begins_append hseam)
  rw [← String.append_assoc, ← List.append_assoc] at hall
  exact ⟨_, hall, hclosed.join hmarks hclosed'⟩

/-- Texts with marks between them may stand in a bracket if each of them
may. -/
theorem Enclosed.intercalate (hc : lead? c = some us)
    (hseam : begins isSeam c = true) (hmarks : us.all Lexeme.isMark = true)
    (htexts : ∀ t ∈ texts, Enclosed q t) :
    Enclosed q (c.intercalate texts) := by
  by_cases hne : texts = []
  · subst hne
    exact .empty
  · exact intercalate_induction
      (fun _ _ hs ht => hs.between hc hseam (.marks hmarks) ht) hne htexts

/-- Closed texts in a row are closed, unless there are none. -/
theorem ClosedText.intercalate (hc : lead? c = some us)
    (hseam : begins isSeam c = true) (hmarks : us.all Lexeme.isMark = true)
    (hne : texts ≠ []) (htexts : ∀ t ∈ texts, ClosedText q t) :
    ClosedText q (c.intercalate texts) :=
  intercalate_induction
    (fun _ _ hs ht => hs.between hc hseam hmarks ht) hne htexts

/-- Texts in a row contain each of them. -/
theorem contains_intercalate (hc : lead? c = some us)
    (hseam : begins isSeam c = true) (hmarks : us.all Lexeme.isMark = true)
    (htexts : ∀ t ∈ texts, Enclosed q t) :
    ∀ t ∈ texts, Contains q (c.intercalate texts) t := by
  induction texts with
  | nil => simp
  | cons t rest ih =>
      obtain ⟨ht, hrest⟩ := List.forall_mem_cons.1 htexts
      cases rest with
      | nil => simpa using ht.contains_self
      | cons u rest =>
          obtain ⟨ls, hls, -⟩ := ht
          obtain ⟨vs, hvs, -⟩ := Enclosed.intercalate hc hseam hmarks hrest
          have hrow := hasLexemes_row hc hseam hls hvs
          refine List.forall_mem_cons.2 ⟨⟨_, ls, hrow, hls,
            (List.prefix_append _ _).isInfix⟩, fun r hr => ?_⟩
          have hbehind : Contains q (c.intercalate (t :: u :: rest))
              (c.intercalate (u :: rest)) := by
            refine ⟨_, vs, hrow, hvs, List.IsSuffix.isInfix ?_⟩
            rw [← List.append_assoc]
            exact List.suffix_append _ _
          exact hbehind.trans (ih hrest r hr)

end Rows

end SchemaEvolution.Sql

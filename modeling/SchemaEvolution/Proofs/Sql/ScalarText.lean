import SchemaEvolution.Proofs.Sql.AnsiArithmetic
import SchemaEvolution.Proofs.Sql.Scalars

/-!
# `SchemaEvolution.Proofs.Sql.ScalarText`: the value of a text

The lexemes of a text are cut into the pieces that an expression is read from.
A word is a keyword, a number or a name, and behind a name a bracket begins a
call, which is one term with all that stands in it.

* `QuoteRule.value?`: the value of a text.
* `cut?_append`: lexemes are cut as they are by themselves, if what follows
  makes no call of the last word.
* `cut?_call`: a call is one term.
* `HasPieces.fill`: the pieces of a template with terms in its holes.
* `HasPieces.value?_eq`: a text has the value of what its pieces derive.
-/

set_option autoImplicit false

namespace SchemaEvolution

open SchemaEvolution.Calendar

namespace Sql

namespace Scalar

/-! ### From lexemes to pieces -/

/-- The keyword that a word is, in any case. -/
def Keyword.ofText? (s : String) : Option Keyword :=
  [.EXTRACT, .FROM, .WHEN, .THEN, .ELSE].find? fun k =>
    s.toList.map Char.toUpper = k.text.toList

/-- The piece that a word is if it is no term. -/
def Piece.ofText? (s : String) : Option Piece :=
  match Keyword.ofText? s with
  | some k => some (.keyword k)
  | none => (naturalNumber? s).map .number

/-- Where a reader of lexemes stands: outside of terms, behind a name that
may be that of a function, or within a call of which it has read some lexemes
and some brackets are open. -/
inductive CutState where
  | outside
  | named (w : String)
  | within (read : List Lexeme) (stack : List Bracket)

namespace CutState

/-- What a lexeme outside of terms is, and where a reader stands behind
it. -/
def ofLexeme? : Lexeme → Option (List Piece × CutState)
  | .word w =>
      match Piece.ofText? w with
      | some p => some ([p], .outside)
      | none => some ([], .named w)
  | .operator op => some ([.operator op], .outside)
  | .mark c => some ([.mark c], .outside)
  | .opening b => some ([.opening b], .outside)
  | .closing b => some ([.closing b], .outside)
  | .literal _ => none

/-- The pieces that end with a lexeme, and where a reader stands behind it. A
bracket behind a name begins a call, which goes on until that bracket is
closed. -/
def step? : CutState → Lexeme → Option (List Piece × CutState)
  | .outside, x => ofLexeme? x
  | .named w, .opening .round =>
      some ([], .within [.word w, .opening .round] [.round])
  -- The name was no function, but a term by itself.
  | .named w, x =>
      (ofLexeme? x).map fun (ps, state) => (.term [.word w] :: ps, state)
  | .within read stack, x =>
      match enter? stack x with
      | some [] => some ([.term (read ++ [x])], .outside)
      | some stack => some ([], .within (read ++ [x]) stack)
      | none => none

/-- The pieces that end with the text. -/
def finish? : CutState → Option (List Piece)
  | .outside => some []
  | .named w => some [.term [.word w]]
  | .within _ _ => none

end CutState

/-- Cuts lexemes into pieces. -/
def cut? (state : CutState) : List Lexeme → Option (List Piece)
  | [] => state.finish?
  | x :: ls => do
      let (ps, next) ← state.step? x
      let qs ← cut? next ls
      return ps ++ qs

/-! ### Cutting pieces apart -/

/-- The lexemes do not make a call of a word before them. -/
def Plain (ls : List Lexeme) : Prop := ls.head? ≠ some (.opening .round)

instance (ls : List Lexeme) : Decidable (Plain ls) :=
  inferInstanceAs (Decidable (_ ≠ _))

theorem cut?_cons {state next : CutState} {x : Lexeme} {ps : List Piece}
    (h : state.step? x = some (ps, next)) (ls : List Lexeme) :
    cut? state (x :: ls) = (cut? next ls).map (ps ++ ·) := by
  rw [cut?, h]
  cases hcut : cut? next ls <;> simp [hcut]

/-- A term that may end does so where no call begins. -/
theorem cut?_of_finish? {state : CutState} {ps : List Piece}
    (h : state.finish? = some ps) {rest : List Lexeme} (hrest : Plain rest) :
    cut? state rest = (cut? .outside rest).map (ps ++ ·) := by
  cases state with
  | outside =>
      cases h
      exact Option.map_id'.symm
  | within read stack => cases h
  | named w =>
      cases h
      cases rest with
      | nil => rfl
      -- A word that may be the name of a function is a term of its own, as
      -- no bracket follows.
      | cons x rest =>
          have hstep : (CutState.named w).step? x =
              (CutState.ofLexeme? x).map fun (ps, state) =>
                (.term [.word w] :: ps, state) := by
            cases x with
            | opening b =>
                cases b with
                | round => exact absurd rfl hrest
                | cases => rfl
            | _ => rfl
          have houtside : CutState.outside.step? x = CutState.ofLexeme? x :=
            rfl
          rw [cut?, cut?, hstep, houtside]
          cases CutState.ofLexeme? x with
          | none => rfl
          | some next => cases hcut : cut? next.2 rest <;> simp [hcut]

/-- Lexemes are cut as they are by themselves, if what follows makes no call
of the last word. -/
theorem cut?_append {state : CutState} {ls rest : List Lexeme}
    {ps : List Piece} (h : cut? state ls = some ps) (hrest : Plain rest) :
    cut? state (ls ++ rest) = (cut? .outside rest).map (ps ++ ·) := by
  induction ls generalizing state ps with
  | nil => exact cut?_of_finish? h hrest
  | cons x ls ih =>
      obtain ⟨⟨front, next⟩, hstep, h⟩ := Option.bind_eq_some_iff.1 h
      obtain ⟨back, hback, h⟩ := Option.bind_eq_some_iff.1 h
      cases h
      rw [List.cons_append, cut?_cons hstep, ih hback, Option.map_map]
      simp only [Function.comp_def, List.append_assoc]

/-- A lexeme that may stand in any bracket does not close the one that it
stands in. -/
theorem enter?_bottom {stack : List Bracket} {x : Lexeme}
    (h : ∀ b, (enter? (stack ++ [b]) x).isSome = true) :
    ∃ next, ∀ b, enter? (stack ++ [b]) x = some (next ++ [b]) := by
  cases stack with
  | nil =>
      cases x with
      | opening b => exact ⟨[b], fun _ => rfl⟩
      | closing b =>
          -- Only one of the two kinds of brackets can be closed here.
          cases b with
          | round => exact absurd (h .cases) (by decide)
          | cases => exact absurd (h .round) (by decide)
      | _ => exact ⟨[], fun _ => rfl⟩
  | cons c stack =>
      cases x with
      | opening b => exact ⟨b :: c :: stack, fun _ => rfl⟩
      | closing b =>
          by_cases hc : c = b
          · exact ⟨stack, fun _ => if_pos hc⟩
          · have hnone := h .round
            rw [List.cons_append, enter?, if_neg hc] at hnone
            cases hnone
      | _ => exact ⟨c :: stack, fun _ => rfl⟩

/-- Lexemes that close no bracket but their own stay in the bracket that they
begin in, whichever that is, and so does each of them. -/
theorem enterAll_cons_bottom {stack stack' : List Bracket} {x : Lexeme}
    {ls : List Lexeme}
    (h : ∀ b, enterAll (stack ++ [b]) (x :: ls) = some (stack' ++ [b])) :
    ∃ next, (∀ b, enter? (stack ++ [b]) x = some (next ++ [b])) ∧
      ∀ b, enterAll (next ++ [b]) ls = some (stack' ++ [b]) := by
  have hsome : ∀ b, (enter? (stack ++ [b]) x).isSome = true := by
    intro b
    obtain ⟨next, hnext, -⟩ :=
      Option.bind_eq_some_iff.1 (enterAll_cons.symm.trans (h b))
    rw [hnext]
    rfl
  obtain ⟨next, hnext⟩ := enter?_bottom hsome
  refine ⟨next, hnext, fun b => ?_⟩
  have hb := h b
  rwa [enterAll_cons, hnext] at hb

/-- A call goes on as long as the bracket is open that began it. -/
theorem cut?_within {stack stack' : List Bracket} {ls : List Lexeme}
    (h : ∀ b, enterAll (stack ++ [b]) ls = some (stack' ++ [b]))
    (read rest : List Lexeme) :
    cut? (.within read (stack ++ [.round])) (ls ++ rest) =
      cut? (.within (read ++ ls) (stack' ++ [.round])) rest := by
  induction ls generalizing read stack with
  | nil =>
      obtain rfl : stack = stack' := by simpa [enterAll] using h .round
      rw [List.append_nil]
      rfl
  | cons x ls ih =>
      obtain ⟨next, hnext, hrest⟩ := enterAll_cons_bottom h
      -- The bracket of the call is still open, so the call has not ended.
      have hstep : (CutState.within read (stack ++ [.round])).step? x =
          some ([], .within (read ++ [x]) (next ++ [.round])) := by
        rw [CutState.step?, hnext]
        cases next <;> rfl
      rw [List.cons_append, cut?_cons hstep, ih hrest, List.append_assoc]
      exact Option.map_id'

/-- A call is one term. -/
theorem cut?_call {w : String} (hw : Piece.ofText? w = none)
    {inner : List Lexeme} (h : Balanced inner) :
    cut? .outside
        (.word w :: .opening .round :: (inner ++ [.closing .round])) =
      some [.term
        (.word w :: .opening .round :: (inner ++ [.closing .round]))] := by
  have hname : CutState.outside.step? (.word w) = some ([], .named w) := by
    rw [CutState.step?, CutState.ofLexeme?, hw]
  have hinner : ∀ b, enterAll ([] ++ [b]) inner = some ([] ++ [b]) :=
    fun b => h b []
  have hopening : (CutState.named w).step? (.opening .round) =
      some ([], .within [.word w, .opening .round] [.round]) := rfl
  rw [cut?_cons hname, cut?_cons hopening]
  have hcall := cut?_within hinner [.word w, .opening .round]
    [.closing .round]
  rw [List.nil_append] at hcall
  rw [hcall]
  rfl

/-! ### Texts and their pieces -/

/-- A text and the pieces that it is cut into. -/
def HasPieces (q : QuoteRule) (s : String) (ps : List Piece) : Prop :=
  ∃ ls, HasLexemes q s ls ∧ cut? .outside ls = some ps

/-- The pieces of a text that stands before any other. -/
def LeadsPieces (q : QuoteRule) (s : String) (ps : List Piece) : Prop :=
  ∃ ls, Leads q s ls ∧ cut? .outside ls = some ps

/-- A text that is one term. -/
structure HasTerm (q : QuoteRule) (s : String) (ls : List Lexeme) :
    Prop where
  lexemes : HasLexemes q s ls
  plain : Plain ls
  cut : cut? .outside ls = some [.term ls]

/-- The pieces of lexemes that make no call of a word before them. -/
def plainPieces? (ls : List Lexeme) : Option (List Piece) :=
  if Plain ls then cut? .outside ls else none

/-- The lexemes of a constant behind a hole, with the constants that are still
to come. Behind the last one the text ends. -/
def behindLexemes? (c : String) : List String → Option (List Lexeme)
  | [] => constant? c.toList
  | _ :: _ => lead? c

/-- The lexemes of the constants behind the holes of a template. -/
def templateLexemes? : List String → Option (List (List Lexeme))
  | [] => some []
  | c :: cs =>
      if begins isSeam c then do
        let ls ← behindLexemes? c cs
        let lss ← templateLexemes? cs
        return ls :: lss
      else none

/-- Lexemes with those of texts in the holes. -/
def weaveLexemes : List Lexeme → List (List Lexeme) →
    List (List Lexeme) → List Lexeme
  | front, us :: holes, ls :: behind =>
      weaveLexemes (front ++ us ++ ls) holes behind
  | front, _, _ => front

/-- The pieces of the constants behind the holes of a template. -/
def behindPieces? : List String → Option (List (List Piece))
  | [] => some []
  | c :: cs =>
      if begins isSeam c then do
        let ls ← behindLexemes? c cs
        let ps ← plainPieces? ls
        let pss ← behindPieces? cs
        return ps :: pss
      else none

/-- Pieces with terms in the holes. -/
def weave :
    List Piece → List (List Lexeme) → List (List Piece) → List Piece
  | front, ls :: terms, ps :: behind =>
      weave (front ++ .term ls :: ps) terms behind
  | front, _, _ => front

section Texts

variable {q : QuoteRule} {s t c : String} {front ps : List Piece}
  {ls us : List Lexeme}

theorem Plain.append (hl : Plain ls) (hu : Plain us) : Plain (ls ++ us) := by
  cases ls with
  | nil => exact hu
  | cons x ls => exact hl

/-- A constant that can stand before any text. -/
theorem LeadsPieces.of_lead? (h : (lead? c).bind (cut? .outside) = some ps) :
    LeadsPieces q c ps := by
  obtain ⟨us, hc, hus⟩ := Option.bind_eq_some_iff.1 h
  exact ⟨us, Leads.of_lead? hc, hus⟩

/-- The lexemes of a constant behind a term. -/
theorem cut?_term (hls : cut? .outside ls = some front) (ht : HasTerm q t us)
    {vs : List Lexeme} (hvs : plainPieces? vs = some ps) :
    cut? .outside (ls ++ us ++ vs) = some (front ++ .term us :: ps) := by
  unfold plainPieces? at hvs
  split at hvs
  · next hplain =>
      rw [List.append_assoc, cut?_append hls (ht.plain.append hplain),
        cut?_append ht.cut hplain, hvs]
      rfl
  · cases hvs

/-- The holes of a template are filled one by one, from the first. -/
theorem hasLexemes_fill {behind texts : List String}
    {holes lss : List (List Lexeme)} (hs : Leads q s ls)
    (hbehind : templateLexemes? behind = some lss)
    (htexts : List.Forall₂ (HasLexemes q) texts holes)
    (hlength : texts.length = behind.length) (hne : texts ≠ []) :
    HasLexemes q (Sql.fill s texts behind) (weaveLexemes ls holes lss) := by
  induction htexts generalizing s ls behind lss with
  | nil => exact absurd rfl hne
  | @cons t us texts holes ht htexts ih =>
      cases behind with
      | nil => cases hlength
      | cons c cs =>
          rw [templateLexemes?] at hbehind
          split at hbehind
          · next hseam =>
              obtain ⟨vs, hvs, h⟩ := Option.bind_eq_some_iff.1 hbehind
              obtain ⟨rest, hrest, h⟩ := Option.bind_eq_some_iff.1 h
              cases h
              cases cs with
              | nil =>
                  -- Behind the last hole the text ends.
                  cases htexts with
                  | cons _ _ => cases hlength
                  | nil =>
                      have hc : HasLexemes q c vs :=
                        lexemes?_of_constant? hvs
                      have hall := hs (ht.append hc hseam)
                      rwa [← String.append_assoc, ← List.append_assoc]
                        at hall
              | cons d cs =>
                  refine ih (hs.append ht hvs hseam) hrest
                    (Nat.succ.inj hlength) ?_
                  rintro rfl
                  cases hlength
          · cases hbehind

/-- Constants that have pieces have lexemes. -/
theorem exists_templateLexemes {behind : List String}
    {pss : List (List Piece)} (h : behindPieces? behind = some pss) :
    ∃ lss, templateLexemes? behind = some lss ∧
      List.Forall₂ (fun ls ps => plainPieces? ls = some ps) lss pss := by
  induction behind generalizing pss with
  | nil =>
      cases h
      exact ⟨[], rfl, .nil⟩
  | cons c cs ih =>
      rw [behindPieces?] at h
      split at h
      · next hseam =>
          obtain ⟨ls, hls, h⟩ := Option.bind_eq_some_iff.1 h
          obtain ⟨ps, hps, h⟩ := Option.bind_eq_some_iff.1 h
          obtain ⟨rest, hrest, h⟩ := Option.bind_eq_some_iff.1 h
          cases h
          obtain ⟨lss, hlss, hall⟩ := ih hrest
          refine ⟨ls :: lss, ?_, .cons hps hall⟩
          rw [templateLexemes?, if_pos hseam, hls, hlss]
          rfl
      · cases h

/-- Lexemes with terms in the holes are cut as pieces with these terms. -/
theorem cut?_weaveLexemes {texts : List String}
    {terms lss : List (List Lexeme)} {pss : List (List Piece)}
    (hls : cut? .outside ls = some front)
    (hterms : List.Forall₂ (HasTerm q) texts terms)
    (hbehind : List.Forall₂ (fun ls ps => plainPieces? ls = some ps)
      lss pss) :
    cut? .outside (weaveLexemes ls terms lss) =
      some (weave front terms pss) := by
  induction hterms generalizing ls front lss pss with
  | nil => exact hls
  | cons ht _ ih =>
      cases hbehind with
      | nil => exact hls
      | cons hps hbehind => exact ih (cut?_term hls ht hps) hbehind

/-- The pieces of a template with terms in its holes. -/
theorem HasPieces.fill {behind texts : List String}
    {pss : List (List Piece)} {terms : List (List Lexeme)}
    (hs : LeadsPieces q s front) (hbehind : behindPieces? behind = some pss)
    (hterms : List.Forall₂ (HasTerm q) texts terms)
    (hlength : texts.length = behind.length) (hne : texts ≠ []) :
    HasPieces q (Sql.fill s texts behind) (weave front terms pss) := by
  obtain ⟨ls, hleads, hls⟩ := hs
  obtain ⟨lss, hlss, hall⟩ := exists_templateLexemes hbehind
  exact ⟨_, hasLexemes_fill hleads hlss
    (hterms.imp fun _ _ ht => ht.lexemes) hlength hne,
    cut?_weaveLexemes hls hterms hall⟩

end Texts

end Scalar

/-! ### The value of a text -/

namespace QuoteRule

/-- The expression that a text is read as. -/
def scalar? (q : QuoteRule) (s : String) : Option Scalar := do
  let ls ← q.lexemes? s.toList
  let ps ← Scalar.cut? .outside ls
  Scalar.parse? ps

/-- The value of a text, where `row` has those of its terms. -/
def value? (q : QuoteRule) (row : List Lexeme → Option Value) (s : String) :
    Option Value := do
  let e ← q.scalar? s
  Scalar.value? row e

end QuoteRule

namespace Scalar

variable {q : QuoteRule} {s : String}

/-- A text is read as its pieces are. -/
theorem HasPieces.scalar?_eq {ps : List Piece} (h : HasPieces q s ps) :
    q.scalar? s = parse? ps := by
  obtain ⟨ls, hls, hps⟩ := h
  have hlexemes : q.lexemes? s.toList = some ls := hls
  rw [QuoteRule.scalar?, hlexemes]
  exact (congrArg (Option.bind · parse?) hps).trans rfl

/-- The value of a text is that of what its pieces derive. -/
theorem HasPieces.value?_eq {ps : List Piece} {e : Scalar}
    (h : HasPieces q s ps) (he : Derives (.scalar .sum) ps e)
    (row : List Lexeme → Option Value) :
    q.value? row s = Scalar.value? row e := by
  rw [QuoteRule.value?, h.scalar?_eq, parse?_of_derives he]
  rfl

/-- The value of a term. -/
theorem HasTerm.value?_eq {ls : List Lexeme} (h : HasTerm q s ls)
    (row : List Lexeme → Option Value) :
    q.value? row s = termValue? row ls :=
  HasPieces.value?_eq ⟨ls, h.lexemes, h.cut⟩
    (.product (.primary (.term ls))) row

/-- A word is a term unless it is a keyword or a number. -/
theorem Piece.ofText?_cases {p : Piece} (h : Piece.ofText? s = some p) :
    (∃ k, p = .keyword k) ∨ ∃ n, p = .number n := by
  unfold Piece.ofText? at h
  split at h
  · next k _ =>
      cases h
      exact .inl ⟨k, rfl⟩
  · obtain ⟨n, -, rfl⟩ := Option.map_eq_some_iff.1 h
    exact .inr ⟨n, rfl⟩

/-- A word with the value of a date is a term. -/
theorem hasTerm_of_value? {row : List Lexeme → Option Value} {d : Date}
    (hs : HasLexemes q s [.word s])
    (h : q.value? row s = some (.date d)) : HasTerm q s [.word s] := by
  cases hword : Piece.ofText? s with
  | none =>
      refine ⟨hs, by simp [Plain], ?_⟩
      simp [cut?, CutState.step?, CutState.ofLexeme?, hword,
        CutState.finish?]
  | some p =>
      have hpieces : HasPieces q s [p] := by
        refine ⟨_, hs, ?_⟩
        simp [cut?, CutState.step?, CutState.ofLexeme?, hword,
          CutState.finish?]
      -- Neither a keyword nor a number has such a value.
      rcases Piece.ofText?_cases hword with ⟨k, rfl⟩ | ⟨n, rfl⟩
      · have hnone : parse? [.keyword k] = none := by cases k <;> rfl
        rw [QuoteRule.value?, hpieces.scalar?_eq, hnone] at h
        cases h
      · rw [hpieces.value?_eq (.product (.primary (.number n)))] at h
        cases h

end Scalar

end Sql

end SchemaEvolution

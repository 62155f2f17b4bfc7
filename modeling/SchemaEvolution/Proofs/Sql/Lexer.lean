import Mathlib.Data.List.Chain
import SchemaEvolution.Dialect.Ansi

/-!
# `SchemaEvolution.Proofs.Sql.Lexer`: where string literals begin and end

A text of SQL is read from left to right. A string literal begins at a
quote and runs to the next quote that does not stand for a quote of the
string; all other characters are code. `lex` reads a whole text, and fails
when the text ends inside a literal.

The dialects differ in how a quote of the string is written. In standard
SQL it is doubled; in NuoDB it is doubled or stands behind a backslash,
which before any other character is one itself. `Sql.QuoteRule` says by
which of these rules `lex` reads. How texts are read behind one another is
said once for both of them (`lex_append`), and a text without backslashes
is read alike by both (`lex_of_no_backslash`).

Tokens can be written back as standard SQL, one after the other. That
gives the text they were read from (`text_of_lex`). The other way round,
tokens are read back from what they are written as when no two literals
stand side by side (`lex_text`): the quotes between two such literals
would be read as a doubled pair.

* `lex_append`: a text is read to its end when no quote follows.
* `lex_escape`: an escaped text is read to its end.
* `lex_text`: tokens with code between their literals are read back.
* `wellSpaced_of_lex`, `text_of_lex`: every text that can be read is
  written from such tokens.
-/

set_option autoImplicit false

namespace SchemaEvolution

/-- The mark that literals begin and end with. -/
def quote : Char := '\''

/-- The mark that may escape a quote behind it. -/
def backslash : Char := '\\'

/-- A part of a text: a character outside of literals, or a literal with
the string that it stands for. -/
inductive Token where
  | code (c : Char)
  | literal (s : String)
deriving DecidableEq

namespace Token

/-- Whether a token is a literal. -/
def isLiteral : Token → Bool
  | .code _ => false
  | .literal _ => true

/-- A token as it is written. -/
def text : Token → List Char
  | .code c => [c]
  | .literal s => quote :: (Ansi.escape s).toList ++ [quote]

end Token

/-- How a quote of a string is written inside of its literal. -/
inductive Sql.QuoteRule where
  /-- It is doubled. -/
  | doubled
  /-- It is doubled, or stands behind a backslash. -/
  | escaped
deriving DecidableEq

/-- Where a reader stands: outside of literals; inside of one of which it
has read some characters; behind a backslash inside of one, where the
backslash may escape a quote; or behind a quote inside of one, which ends
the literal unless another quote follows. -/
inductive LexState where
  | outside
  | inside (read : List Char)
  | behindBackslash (read : List Char)
  | behindQuote (read : List Char)

/-- Reads a text. It may not end inside a literal. -/
def lex (q : Sql.QuoteRule) : LexState → List Char → Option (List Token)
  | .outside, [] => some []
  | .inside _, [] => none
  | .behindBackslash _, [] => none
  | .behindQuote read, [] => some [.literal (String.ofList read)]
  | .outside, c :: cs =>
      if c = quote then lex q (.inside []) cs
      else (lex q .outside cs).map (.code c :: ·)
  | .inside read, c :: cs =>
      if c = quote then lex q (.behindQuote read) cs
      else if q = .escaped ∧ c = backslash then
        lex q (.behindBackslash read) cs
      else lex q (.inside (read ++ [c])) cs
  | .behindBackslash read, c :: cs =>
      if c = quote then lex q (.inside (read ++ [quote])) cs
      else if c = backslash then
        lex q (.behindBackslash (read ++ [backslash])) cs
      else lex q (.inside (read ++ [backslash, c])) cs
  | .behindQuote read, c :: cs =>
      if c = quote then lex q (.inside (read ++ [quote])) cs
      else (lex q .outside cs).map fun ts =>
        .literal (String.ofList read) :: .code c :: ts

/-! ### Texts behind one another -/

section Append

variable {q : Sql.QuoteRule} {read cs rest : List Char}

/-- Outside of literals, what is no quote is code. -/
theorem lex_code {c : Char} (hc : c ≠ quote) (cs : List Char) :
    lex q .outside (c :: cs) = (lex q .outside cs).map (.code c :: ·) :=
  if_neg hc

/-- Inside of a literal, what is neither a quote nor a backslash is one
more character of it. -/
theorem lex_inside {c : Char} (hquote : c ≠ quote)
    (hbackslash : c ≠ backslash) :
    lex q (.inside read) (c :: cs) = lex q (.inside (read ++ [c])) cs := by
  rw [lex, if_neg hquote, if_neg fun h => hbackslash h.2]

/-- Where quotes are only doubled, a backslash is like any other
character of a literal. -/
theorem lex_doubled_inside {c : Char} (hc : c ≠ quote) :
    lex .doubled (.inside read) (c :: cs) =
      lex .doubled (.inside (read ++ [c])) cs := by
  rw [lex, if_neg hc, if_neg (by simp)]

/-- A text without quotes is read as nothing but code. -/
theorem lex_of_quoteFree (h : quote ∉ cs) :
    lex q .outside cs = some (cs.map Token.code) := by
  induction cs with
  | nil => rfl
  | cons c cs ih =>
      have hc : c ≠ quote := fun hc => h (hc ▸ List.mem_cons_self)
      have hcs : quote ∉ cs := fun hmem => h (List.mem_cons_of_mem c hmem)
      rw [lex_code hc, ih hcs]
      rfl

/-- Behind a quote, a literal has ended when no quote follows. -/
theorem lex_behindQuote (h : ∀ c ∈ cs.head?, c ≠ quote) :
    lex q (.behindQuote read) cs =
      (lex q .outside cs).map (.literal (String.ofList read) :: ·) := by
  cases cs with
  | nil => rfl
  | cons c cs =>
      have hc : c ≠ quote := h c rfl
      simp only [lex, if_neg hc, Option.map_map]
      rfl

/-- A text that does not end within a literal is read to its end, when no
quote follows. -/
theorem lex_append {state : LexState} {ts : List Token}
    (h : lex q state cs = some ts) (hrest : ∀ c ∈ rest.head?, c ≠ quote) :
    lex q state (cs ++ rest) = (lex q .outside rest).map (ts ++ ·) := by
  induction cs generalizing state ts with
  | nil =>
      cases state with
      | outside =>
          cases h
          exact Option.map_id'.symm
      | inside read => cases h
      | behindBackslash read => cases h
      | behindQuote read =>
          cases h
          exact lex_behindQuote hrest
  | cons c cs ih =>
      cases state with
      | outside | behindQuote read =>
          simp only [List.cons_append, lex] at h ⊢
          split at h
          · next hc =>
              rw [if_pos hc]
              exact ih h
          · next hc =>
              obtain ⟨us, hus, rfl⟩ := Option.map_eq_some_iff.1 h
              rw [if_neg hc, ih hus, Option.map_map]
              rfl
      | inside read | behindBackslash read =>
          -- No character within a literal gives a token.
          simp only [List.cons_append, lex] at h ⊢
          split at h
          · next hc =>
              rw [if_pos hc]
              exact ih h
          · next hc =>
              rw [if_neg hc]
              split at h
              · next hc' =>
                  rw [if_pos hc']
                  exact ih h
              · next hc' =>
                  rw [if_neg hc']
                  exact ih h

/-- The reader does not stand behind a backslash. -/
inductive LexState.Plain : LexState → Prop
  | outside : Plain .outside
  | inside (read : List Char) : Plain (.inside read)
  | behindQuote (read : List Char) : Plain (.behindQuote read)

/-- A text without backslashes is read alike by both rules. -/
theorem lex_of_no_backslash (h : backslash ∉ cs) {state : LexState}
    (hstate : state.Plain) : lex q state cs = lex .doubled state cs := by
  induction cs generalizing state with
  | nil => cases state <;> rfl
  | cons c cs ih =>
      obtain ⟨hc, hcs⟩ := not_or.1 (mt List.mem_cons.2 h)
      cases hstate with
      | outside => rw [lex, lex, ih hcs (.inside []), ih hcs .outside]
      | inside read =>
          have hescape : ∀ r : Sql.QuoteRule,
              ¬ (r = .escaped ∧ c = backslash) := fun _ h => hc h.2.symm
          rw [lex, lex, if_neg (hescape q), if_neg (hescape .doubled),
            ih hcs (.behindQuote read), ih hcs (.inside (read ++ [c]))]
      | behindQuote read =>
          rw [lex, lex, ih hcs (.inside (read ++ [quote])),
            ih hcs .outside]

end Append

/-! ### Escaped texts -/

/-- The characters of an escaped text. -/
def escapeChars (cs : List Char) : List Char :=
  cs.flatMap fun c => if c = quote then [quote, quote] else [c]

/-- Escaping goes character by character. -/
theorem toList_escape (s : String) :
    (Ansi.escape s).toList = escapeChars s.toList := by
  rw [Ansi.escape, String.toList_ofList]
  rfl

/-- An escaped text is read to its end, as the text that it stands
for. -/
theorem lex_escape (read cs rest : List Char) :
    lex .doubled (.inside read) (escapeChars cs ++ rest) =
      lex .doubled (.inside (read ++ cs)) rest := by
  induction cs generalizing read with
  | nil => rw [List.append_nil]; rfl
  | cons c cs ih =>
      have hcons : escapeChars (c :: cs) =
          (if c = quote then [quote, quote] else [c]) ++ escapeChars cs :=
        List.flatMap_cons
      rw [hcons, List.append_assoc]
      by_cases hc : c = quote
      · -- The first quote may end the literal, the second says that it
        -- does not.
        rw [if_pos hc]
        show lex .doubled (.inside (read ++ [quote]))
          (escapeChars cs ++ rest) = _
        rw [ih, List.append_assoc, hc]
        rfl
      · rw [if_neg hc]
        rw [List.singleton_append, lex_doubled_inside hc, ih,
          List.append_assoc]
        rfl

/-! ### Tokens that can be read back -/

/-- No character of code is a quote, and no two literals stand side by
side. -/
structure WellSpaced (ts : List Token) : Prop where
  code : ∀ c, .code c ∈ ts → c ≠ quote
  apart : ts.IsChain fun a b => ¬ (a.isLiteral ∧ b.isLiteral)

namespace WellSpaced

variable {t : Token} {ts : List Token}

/-- What is well spaced stays so without its first token. -/
theorem tail (h : WellSpaced (t :: ts)) : WellSpaced ts :=
  ⟨fun c hc => h.code c (List.mem_cons_of_mem t hc), h.apart.tail⟩

/-- A character other than a quote may stand in front of everything. -/
theorem cons_code {c : Char} (hc : c ≠ quote) (h : WellSpaced ts) :
    WellSpaced (.code c :: ts) := by
  constructor
  · intro d hd
    rcases List.mem_cons.mp hd with hd | hd
    · cases hd
      exact hc
    · exact h.code d hd
  · refine List.isChain_cons.mpr ⟨?_, h.apart⟩
    rintro t - ⟨hliteral, -⟩
    cases hliteral

/-- A literal may stand in front of what does not begin with another one. Two
in a row would be read as one. -/
theorem cons_literal {s : String} (h : WellSpaced ts)
    (hhead : ∀ t ∈ ts.head?, t.isLiteral = false) :
    WellSpaced (.literal s :: ts) := by
  constructor
  · intro c hc
    rcases List.mem_cons.mp hc with hc | hc
    · cases hc
    · exact h.code c hc
  · refine List.isChain_cons.mpr ⟨?_, h.apart⟩
    rintro t ht ⟨-, hliteral⟩
    rw [hhead t ht] at hliteral
    cases hliteral

/-- What follows a literal does not begin with a quote. -/
theorem head?_text {s : String} (h : WellSpaced (.literal s :: ts)) :
    ∀ c ∈ (ts.flatMap Token.text).head?, c ≠ quote := by
  intro c hc
  cases ts with
  | nil => cases hc
  | cons t ts =>
      cases t with
      | code d =>
          obtain rfl : d = c := by simpa [Token.text] using hc
          exact h.code d (List.mem_cons_of_mem _ List.mem_cons_self)
      | literal s' =>
          -- Two literals side by side are ruled out.
          have hapart := (List.isChain_cons.mp h.apart).1 _ rfl
          exact absurd ⟨rfl, rfl⟩ hapart

end WellSpaced

/-- Tokens with code between their literals are read back from what they
are written as. -/
theorem lex_text {ts : List Token} (h : WellSpaced ts) :
    lex .doubled .outside (ts.flatMap Token.text) = some ts := by
  induction ts with
  | nil => rfl
  | cons t ts ih =>
      rw [List.flatMap_cons]
      cases t with
      | code c =>
          have hc : c ≠ quote := h.code c List.mem_cons_self
          show lex .doubled .outside (c :: ts.flatMap Token.text) = _
          rw [lex_code hc, ih h.tail]
          rfl
      | literal s =>
          -- The first quote opens the literal and the escaped text does
          -- not close it. The last quote does, since none follows it.
          show lex .doubled .outside (quote ::
            ((Ansi.escape s).toList ++ [quote] ++
              ts.flatMap Token.text)) = _
          rw [lex, if_pos rfl, toList_escape, List.append_assoc, lex_escape]
          show lex .doubled (.inside s.toList) (quote :: _) = _
          rw [lex, if_pos rfl]
          show lex .doubled (.behindQuote s.toList)
            (ts.flatMap Token.text) = _
          rw [lex_behindQuote h.head?_text, ih h.tail, String.ofList_toList]
          rfl

/-! ### What has been read -/

/-- What a reader has read, as it is written. Behind a quote, the
literal is complete. -/
def LexState.text : LexState → List Char
  | .outside => []
  | .inside read => quote :: escapeChars read
  | .behindBackslash read => quote :: escapeChars read ++ [backslash]
  | .behindQuote read => quote :: escapeChars read ++ [quote]

/-- A text that can be read is written from tokens with code between
their literals. A reader inside a literal goes on with that literal. -/
theorem wellSpaced_of_lex {state : LexState} {cs : List Char}
    {ts : List Token} (hstate : state.Plain)
    (h : lex .doubled state cs = some ts) :
    WellSpaced ts ∧ ts.flatMap Token.text = state.text ++ cs := by
  induction cs generalizing state ts with
  | nil =>
      cases state with
      | outside =>
          cases h
          exact ⟨⟨by simp, .nil⟩, rfl⟩
      | inside read => cases h
      | behindBackslash read => cases h
      | behindQuote read =>
          cases h
          refine ⟨⟨by simp, .singleton _⟩, ?_⟩
          simp [Token.text, toList_escape, LexState.text]
  | cons c cs ih =>
      by_cases hc : c = quote
      · subst hc
        -- A quote changes the state, and what has been read grows by it.
        cases state with
        | outside =>
            have hread : lex .doubled (.inside []) cs = some ts := h
            exact ih (.inside []) hread
        | inside read =>
            have hread : lex .doubled (.behindQuote read) cs = some ts := h
            obtain ⟨hspaced, htext⟩ := ih (.behindQuote read) hread
            refine ⟨hspaced, htext.trans ?_⟩
            simp [LexState.text]
        | behindBackslash read => cases hstate
        | behindQuote read =>
            have hread : lex .doubled (.inside (read ++ [quote])) cs =
                some ts := h
            obtain ⟨hspaced, htext⟩ := ih (.inside (read ++ [quote])) hread
            refine ⟨hspaced, htext.trans ?_⟩
            simp [LexState.text, escapeChars]
      · cases state with
        | outside =>
            rw [lex_code hc, Option.map_eq_some_iff] at h
            obtain ⟨rest, hrest, rfl⟩ := h
            obtain ⟨hspaced, htext⟩ := ih .outside hrest
            refine ⟨hspaced.cons_code hc, ?_⟩
            rw [List.flatMap_cons, htext]
            rfl
        | inside read =>
            rw [lex_doubled_inside hc] at h
            obtain ⟨hspaced, htext⟩ := ih (.inside (read ++ [c])) h
            refine ⟨hspaced, htext.trans ?_⟩
            simp [LexState.text, escapeChars, hc]
        | behindBackslash read => cases hstate
        | behindQuote read =>
            rw [lex, if_neg hc, Option.map_eq_some_iff] at h
            obtain ⟨rest, hrest, rfl⟩ := h
            obtain ⟨hspaced, htext⟩ := ih .outside hrest
            have hcode := hspaced.cons_code hc
            refine ⟨hcode.cons_literal fun t ht => ?_, ?_⟩
            · cases ht
              rfl
            · rw [List.flatMap_cons, List.flatMap_cons, htext]
              simp [Token.text, toList_escape, LexState.text]

/-- A text that can be read is what its tokens are written as. -/
theorem text_of_lex {cs : List Char} {ts : List Token}
    (h : lex .doubled .outside cs = some ts) :
    ts.flatMap Token.text = cs :=
  (wellSpaced_of_lex .outside h).2

end SchemaEvolution

import SchemaEvolution.Dialect.ExprText
import SchemaEvolution.Dialect.NuoDb
import SchemaEvolution.Proofs.Sql.Lexer

/-!
# `SchemaEvolution.Proofs.Sql.SplicedStrings`: the strings of NuoDB

In a literal of NuoDB a quote can be written in two ways: twice, or
behind a backslash. A backslash that stands before any other character is
one itself, but no literal can end in it. So a string is not written as
one literal. It is cut at its backslashes, and each of them becomes a
term of its own, `TRIM('\ ')`, between two bars on either side.

`lex .escaped` reads a text by the rules of these literals, and `chain?`
what has been read as a chain of terms. A reader that is inside a literal
may stand behind a backslash; a text that was written never has it meet a
quote there.

* `lex_splice`: what the reader makes of the text of a string, and that
  it goes on behind the text as if nothing had been before.
* `chain?_chainTokens`: the tokens of a chain are read as that chain.
* `flatMap_value_terms`: the terms of a string stand for it.
* `unescaped_splice`: no backslash is written before a quote.
* `string_reads_back`: a string that was written is read as that string,
  and to its end.
-/

set_option autoImplicit false

namespace SchemaEvolution.NuoDb

/-! ### Chains of terms -/

/-- A term of a chain: a literal, or a backslash that is trimmed out of a
literal of its own. -/
inductive Term where
  | string (s : List Char)
  | trimmedBackslash
deriving DecidableEq

namespace Term

/-- What a term stands for. -/
def value : Term → List Char
  | .string s => s
  | .trimmedBackslash => [backslash]

/-- What a term is read as. -/
def tokens : Term → List Token
  | .string s => [.literal (String.ofList s)]
  | .trimmedBackslash =>
      [.code 'T', .code 'R', .code 'I', .code 'M', .code '(',
        .literal "\\ ", .code ')']

end Term

/-- The terms of a chain: one, or one before two bars and a chain. -/
def chain? : List Token → Option (List Term)
  | [.literal s] => some [.string s.toList]
  | .literal s :: .code '|' :: .code '|' :: ts =>
      (chain? ts).map (.string s.toList :: ·)
  | [.code 'T', .code 'R', .code 'I', .code 'M', .code '(', .literal s,
      .code ')'] =>
      if s = "\\ " then some [.trimmedBackslash] else none
  | .code 'T' :: .code 'R' :: .code 'I' :: .code 'M' :: .code '(' ::
      .literal s :: .code ')' :: .code '|' :: .code '|' :: ts =>
      if s = "\\ " then (chain? ts).map (.trimmedBackslash :: ·) else none
  | _ => none

/-- What a chain is read as: its terms with two bars between them. -/
def chainTokens (terms : List Term) : List Token :=
  [Token.code '|', .code '|'].intercalate (terms.map Term.tokens)

/-- The tokens of a chain are read as that chain. -/
theorem chain?_chainTokens {terms : List Term} (h : terms ≠ []) :
    chain? (chainTokens terms) = some terms := by
  induction terms with
  | nil => exact absurd rfl h
  | cons t rest ih =>
      cases rest with
      | nil => cases t <;> simp [chainTokens, Term.tokens, chain?]
      | cons u rest =>
          have hrest := ih (List.cons_ne_nil u rest)
          have hcons : chainTokens (t :: u :: rest) =
              t.tokens ++ .code '|' :: .code '|' ::
                chainTokens (u :: rest) := by
            simp [chainTokens]
          rw [hcons]
          cases t <;> simp [Term.tokens, chain?, hrest]

/-! ### The text of a string -/

/-- The characters of an escaped text. -/
def splice (cs : List Char) : List Char :=
  cs.flatMap fun c =>
    if c = quote then [quote, quote]
    else if c = backslash then backslashSplice
    else [c]

/-- Escaping goes character by character. -/
theorem toList_escape (s : String) : (escape s).toList = splice s.toList := by
  rw [escape, String.toList_ofList]
  rfl

/-- A quote is doubled. -/
theorem splice_quote (cs : List Char) :
    splice (quote :: cs) = quote :: quote :: splice cs := rfl

/-- A backslash is spliced in between two literals. -/
theorem splice_backslash (cs : List Char) :
    splice (backslash :: cs) = backslashSplice ++ splice cs := rfl

/-- Any other character stands for itself. -/
theorem splice_cons {c : Char} (hquote : c ≠ quote)
    (hbackslash : c ≠ backslash) (cs : List Char) :
    splice (c :: cs) = c :: splice cs := by
  simp [splice, hquote, hbackslash]

/-- The terms of a string of which a part has been read: one literal up
to each backslash and one behind the last. -/
def terms (read : List Char) : List Char → List Term
  | [] => [.string read]
  | c :: cs =>
      if c = backslash then
        .string read :: .trimmedBackslash :: terms [] cs
      else terms (read ++ [c]) cs

/-- Every string has a term, also the empty one. -/
theorem terms_ne_nil (read cs : List Char) : terms read cs ≠ [] := by
  induction cs generalizing read with
  | nil => exact List.cons_ne_nil _ _
  | cons c cs ih =>
      rw [terms]
      split
      · exact List.cons_ne_nil _ _
      · exact ih _

/-- The terms of a string stand for it. -/
theorem flatMap_value_terms (read cs : List Char) :
    (terms read cs).flatMap Term.value = read ++ cs := by
  induction cs generalizing read with
  | nil => simp [terms, Term.value]
  | cons c cs ih =>
      rw [terms]
      split
      · rename_i hc
        simp [Term.value, ih, hc]
      · rw [ih, List.append_assoc]
        rfl

/-- The characters that are spliced in: a literal ends, a trimmed one stands
by itself, another one begins. -/
theorem backslashSplice_eq : backslashSplice =
    [quote, '|', '|', 'T', 'R', 'I', 'M', '(', quote, backslash, ' ', quote,
      ')', '|', '|', quote] := by decide

/-- Where a backslash is spliced in, a literal ends, the trimmed backslash
is read, and another literal begins. -/
theorem lex_backslashSplice (read rest : List Char) :
    lex .escaped (.inside read) (backslashSplice ++ rest) =
      (lex .escaped (.inside []) rest).map fun ts =>
        .literal (String.ofList read) :: .code '|' :: .code '|' ::
          (Term.trimmedBackslash.tokens ++ .code '|' :: .code '|' :: ts) := by
  rw [backslashSplice_eq]
  simp [lex, quote, backslash, Term.tokens, Function.comp_def]

/-- Inside a literal, the text of a string is read as the terms of that
string, of which the first goes on with what has been read before. -/
theorem lex_splice (read cs : List Char) {rest : List Char}
    (h : ∀ c ∈ rest.head?, c ≠ quote) :
    lex .escaped (.inside read) (splice cs ++ quote :: rest) =
      (lex .escaped .outside rest).map (chainTokens (terms read cs) ++ ·) := by
  induction cs generalizing read with
  | nil =>
      show lex .escaped (.inside read) (quote :: rest) = _
      rw [lex, if_pos rfl, lex_behindQuote h]
      simp [terms, chainTokens, Term.tokens]
  | cons c cs ih =>
      by_cases hquote : c = quote
      · -- The first quote may end the literal, the second says that it
        -- does not.
        subst hquote
        rw [splice_quote]
        show lex .escaped (.inside (read ++ [quote]))
          (splice cs ++ quote :: rest) = _
        rw [ih, terms, if_neg (by decide)]
      · by_cases hbackslash : c = backslash
        · subst hbackslash
          obtain ⟨t, ts, hterms⟩ := List.exists_cons_of_ne_nil
            (terms_ne_nil [] cs)
          rw [splice_backslash, List.append_assoc, lex_backslashSplice, ih,
            terms, if_pos rfl, Option.map_map, hterms]
          simp [chainTokens, Term.tokens, Function.comp_def]
        · rw [splice_cons hquote hbackslash, List.cons_append,
            lex_inside hquote hbackslash, ih, terms, if_neg hbackslash]

/-- No backslash stands immediately before a quote. -/
def Unescaped (cs : List Char) : Prop :=
  cs.IsChain fun a b => ¬ (a = backslash ∧ b = quote)

namespace Unescaped

variable {cs : List Char}

/-- Other characters than backslashes may stand anywhere. -/
theorem append (h : Unescaped cs) (ds : List Char)
    (hds : backslash ∉ ds) : Unescaped (ds ++ cs) := by
  induction ds with
  | nil => exact h
  | cons d ds ih =>
      rw [List.mem_cons, not_or] at hds
      obtain ⟨hd, hds⟩ := hds
      exact List.isChain_cons.mpr
        ⟨fun _ _ hboth => hd hboth.1.symm, ih hds⟩

/-- A chain of characters without such a neighbour has no such pair anywhere.
-/
theorem no_pair (h : Unescaped cs) : ¬ [backslash, quote] <:+: cs := by
  intro hinfix
  have hpair : Unescaped [backslash, quote] := List.IsChain.infix h hinfix
  exact (List.isChain_cons_cons.mp hpair).1 ⟨rfl, rfl⟩

end Unescaped

/-- No backslash is written before a quote. -/
theorem unescaped_splice {rest : List Char} (h : Unescaped rest)
    (cs : List Char) : Unescaped (splice cs ++ rest) := by
  induction cs with
  | nil => exact h
  | cons c cs ih =>
      by_cases hbackslash : c = backslash
      · -- The one backslash that is written stands before a blank.
        subst hbackslash
        have hbehind : Unescaped
            (' ' :: ([quote, ')', '|', '|', quote] ++ (splice cs ++ rest))) :=
          ih.append [' ', quote, ')', '|', '|', quote] (by decide)
        have htrimmed := List.IsChain.cons_cons (a := backslash)
          (fun hboth => absurd hboth.2 (by decide)) hbehind
        rw [splice_backslash, List.append_assoc, backslashSplice_eq]
        exact Unescaped.append htrimmed
          [quote, '|', '|', 'T', 'R', 'I', 'M', '(', quote] (by decide)
      · by_cases hquote : c = quote
        · subst hquote
          exact ih.append [quote, quote] (by decide)
        · rw [splice_cons hquote hbackslash]
          exact ih.append [c] (by simpa using Ne.symm hbackslash)

/-- The text of a string of NuoDB is read, whatever follows it other than
a quote, as a chain of literals and trimmed backslashes that ends where
the text does. No backslash in it stands immediately before a quote, and
the chain stands for the string. -/
theorem string_reads_back (s : String) :
    ∃ text, Dialect.nuoDb.literalText (.string s) = .ok text ∧
      ¬ [backslash, quote] <:+: text.toList ∧
      ∃ tokens terms, chain? tokens = some terms ∧
        terms.flatMap Term.value = s.toList ∧
        ∀ rest : List Char, (∀ c ∈ rest.head?, c ≠ quote) →
          lex .escaped .outside (text.toList ++ rest) =
            (lex .escaped .outside rest).map (tokens ++ ·) := by
  have htext : ("'" ++ escape s ++ "'").toList =
      [quote] ++ (splice s.toList ++ [quote]) := by
    simp [toList_escape, quote]
  refine ⟨"'" ++ escape s ++ "'", rfl, ?_, chainTokens (terms [] s.toList),
    terms [] s.toList, chain?_chainTokens (terms_ne_nil _ _),
    flatMap_value_terms [] s.toList, fun rest hrest => ?_⟩
  · rw [htext]
    have hunescaped : Unescaped (splice s.toList ++ [quote]) :=
      unescaped_splice (.singleton quote) s.toList
    exact (hunescaped.append [quote] (by decide)).no_pair
  · have hlex := lex_splice [] s.toList hrest
    rw [htext, List.append_assoc, List.append_assoc]
    exact hlex

/-- Two backslashes before a quote at the end of a string, which stands
in a list. The literal between the backslashes is empty. -/
theorem escapedQuote_reads_back :
    let text := "'it'||TRIM('\\ ')||''||TRIM('\\ ')||''''"
    Dialect.nuoDb.literalText (.string "it\\\\'") = .ok text ∧
      (∀ c ∈ ", 1)".toList.head?, c ≠ quote) ∧
      ∃ tokens terms, chain? tokens = some terms ∧
        terms.flatMap Term.value = "it\\\\'".toList ∧
        lex .escaped .outside (text.toList ++ ", 1)".toList) =
          some (tokens ++ ", 1)".toList.map Token.code) := by
  intro text
  have htext : Dialect.nuoDb.literalText (.string "it\\\\'") = .ok text := by
    decide
  have hrest : ∀ c ∈ ", 1)".toList.head?, c ≠ quote := by
    rintro _ ⟨⟩
    decide
  obtain ⟨text', htext', -, tokens, terms, hchain, hvalue, hlex⟩ :=
    string_reads_back "it\\\\'"
  obtain rfl : text = text' := Except.ok.inj (htext.symm.trans htext')
  refine ⟨htext, hrest, tokens, terms, hchain, hvalue, ?_⟩
  rw [hlex _ hrest]
  rfl

end SchemaEvolution.NuoDb

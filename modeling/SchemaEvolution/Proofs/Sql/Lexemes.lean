import SchemaEvolution.Proofs.Sql.SplicedStrings
import SchemaEvolution.Proofs.Sql.Words

/-!
# `SchemaEvolution.Proofs.Sql.Lexemes`: operators and brackets in a text

Arithmetic is looked for in any text that an expression is written as, so
the lexemes here are few: words, string literals, the four operators,
brackets, and marks that mean nothing to arithmetic. `CASE` and `END` are
brackets like any others. Blanks only keep words apart.

The dialects differ in how they write a quote inside of a string literal.
Everything here is said once for both quote rules.

A text is read one part after the other where it is put together, as long
as the part behind begins with a seam or the part before ends with one. So
the constants of a template are read by themselves, and the texts in its
holes may be anything, even empty or literals.

* `QuoteRule.lexemes?_append`: texts with a seam between them.
* `Leads.of_lead?`, `Leads.append`: what a text may follow.
* `hasLexemes_word`, `hasLexemes_signed`, `hasLexemes_quoted`: words,
  numbers with a sign, and literals.
-/

set_option autoImplicit false

namespace SchemaEvolution

namespace Sql

/-! ### Lexemes -/

/-- What can be opened and closed. -/
inductive Bracket where
  | round
  | cases
deriving DecidableEq

/-- What arithmetic is looked for in. -/
inductive Lexeme where
  | word (s : String)
  | literal (s : String)
  | operator (op : Operator)
  | opening (b : Bracket)
  | closing (b : Bracket)
  | mark (c : Char)
deriving DecidableEq

namespace Lexeme

/-- What characters of words are together. -/
def ofWord (cs : List Char) : Lexeme :=
  if cs.map Char.toUpper = "CASE".toList then .opening .cases
  else if cs.map Char.toUpper = "END".toList then .closing .cases
  else .word (String.ofList cs)

/-- What any other character is by itself. A blank is nothing. -/
def ofChar? (c : Char) : Option Lexeme :=
  if charClass c = .blank then none
  else
    match c with
    | '+' => some (.operator .plus)
    | '-' => some (.operator .minus)
    | '*' => some (.operator .times)
    | '/' => some (.operator .divide)
    | '(' => some (.opening .round)
    | ')' => some (.closing .round)
    | c => some (.mark c)

/-- The lexeme that the characters of a word are, if there are any. -/
def endWord : List Char → List Lexeme
  | [] => []
  | cs => [ofWord cs]

end Lexeme

/-- The lexemes of tokens, behind some characters of a word that has not
ended yet. -/
def lexemesFrom : List Char → List Token → List Lexeme
  | word, [] => Lexeme.endWord word
  | word, .code c :: ts =>
      if charClass c = .word then lexemesFrom (word ++ [c]) ts
      else
        Lexeme.endWord word ++ (Lexeme.ofChar? c).toList ++
          lexemesFrom [] ts
  | word, .literal s :: ts =>
      Lexeme.endWord word ++ .literal s :: lexemesFrom [] ts

/-- The lexemes of a text. -/
def QuoteRule.lexemes? (q : QuoteRule) (cs : List Char) :
    Option (List Lexeme) :=
  (lex q .outside cs).map (lexemesFrom [])

/-! ### Texts behind one another -/

section Append

variable {q : QuoteRule}

/-- No literal begins at a seam. -/
theorem ne_quote_of_isSeam {c : Char} (h : isSeam c = true) :
    c ≠ quote := by
  rintro rfl
  exact absurd h (by decide)

/-- No word goes on at a seam. -/
theorem charClass_of_isSeam {c : Char} (h : isSeam c = true) :
    charClass c ≠ .word := by
  intro hword
  simp [isSeam, hword] at h

/-- A word ends where something follows that is in no word. -/
theorem lexemesFrom_append {word : List Char} {ts us : List Token}
    (h : ∀ c, .code c ∈ us.head? → charClass c ≠ .word) :
    lexemesFrom word (ts ++ us) =
      lexemesFrom word ts ++ lexemesFrom [] us := by
  -- The induction goes over the first part, with the word that was begun.
  induction ts generalizing word with
  | nil =>
      cases us with
      | nil => simp [lexemesFrom, Lexeme.endWord]
      | cons u us =>
          cases u with
          | code c =>
              have hc := h c rfl
              simp [lexemesFrom, hc, Lexeme.endWord]
          | literal s => simp [lexemesFrom, Lexeme.endWord]
  | cons t ts ih =>
      cases t with
      | code c =>
          rw [List.cons_append, lexemesFrom, lexemesFrom]
          split
          · exact ih
          · rw [ih]
            simp only [List.append_assoc]
      | literal s =>
          rw [List.cons_append, lexemesFrom, lexemesFrom, ih]
          simp only [List.append_assoc, List.cons_append]

/-- Nothing is in an empty text. -/
theorem QuoteRule.lexemes?_nil : q.lexemes? [] = some [] := rfl

/-- A seam is read by itself. -/
theorem QuoteRule.lexemes?_cons {c : Char} (hc : isSeam c = true)
    (cs : List Char) :
    q.lexemes? (c :: cs) =
      (q.lexemes? cs).map ((Lexeme.ofChar? c).toList ++ ·) := by
  have hword := charClass_of_isSeam hc
  rw [lexemes?, lex_code (ne_quote_of_isSeam hc), lexemes?,
    Option.map_map, Option.map_map]
  simp [Function.comp_def, lexemesFrom, hword, Lexeme.endWord]

/-- A text is read to its end where a seam follows. -/
theorem QuoteRule.lexemes?_append {cs rest : List Char} {ls : List Lexeme}
    (h : q.lexemes? cs = some ls) (hrest : ∀ c ∈ rest.head?, isSeam c) :
    q.lexemes? (cs ++ rest) = (q.lexemes? rest).map (ls ++ ·) := by
  obtain ⟨ts, hts, rfl⟩ := Option.map_eq_some_iff.1 h
  have hquote : ∀ c ∈ rest.head?, c ≠ quote :=
    fun c hc => ne_quote_of_isSeam (hrest c hc)
  rw [lexemes?, lex_append hts hquote, lexemes?, Option.map_map,
    Option.map_map]
  refine Option.map_congr fun us hus => lexemesFrom_append fun c hc => ?_
  -- The first token is the seam.
  cases rest with
  | nil =>
      cases hus
      cases hc
  | cons d rest =>
      have hd := hrest d rfl
      rw [lex_code (ne_quote_of_isSeam hd)] at hus
      obtain ⟨vs, -, rfl⟩ := Option.map_eq_some_iff.1 hus
      cases hc
      exact charClass_of_isSeam hd

end Append

/-! ### Texts and constants -/

/-- A text and its lexemes. -/
def HasLexemes (q : QuoteRule) (s : String) (ls : List Lexeme) : Prop :=
  q.lexemes? s.toList = some ls

/-- The lexemes of a text that stands before any other. -/
def Leads (q : QuoteRule) (s : String) (ls : List Lexeme) : Prop :=
  ∀ {t : String} {us : List Lexeme}, HasLexemes q t us →
    HasLexemes q (s ++ t) (ls ++ us)

/-- The lexemes of a constant, which are the same under both rules. -/
def constant? (cs : List Char) : Option (List Lexeme) :=
  if backslash ∈ cs then none else QuoteRule.doubled.lexemes? cs

/-- The lexemes of a constant that can stand before any text. -/
def lead? (s : String) : Option (List Lexeme) :=
  match s.toList.getLast? with
  | some c =>
      if isSeam c then
        (constant? s.toList.dropLast).map (· ++ (Lexeme.ofChar? c).toList)
      else none
  | none => none

section Constants

variable {q : QuoteRule} {s t c : String} {ls us vs : List Lexeme}

/-- A constant has no quote and no backslash, so it has the same lexemes
under every rule. -/
theorem lexemes?_of_constant? {cs : List Char} (h : constant? cs = some ls) :
    q.lexemes? cs = some ls := by
  unfold constant? at h
  split at h
  · cases h
  · next hcs =>
      rwa [QuoteRule.lexemes?, lex_of_no_backslash hcs .outside]

/-- A constant that ends with a seam can stand before any text. -/
theorem Leads.of_lead? (h : lead? c = some us) : Leads q c us := by
  intro t vs ht
  unfold lead? at h
  split at h
  · next d hlast =>
      split at h
      · next hd =>
          obtain ⟨front, hfront, rfl⟩ := Option.map_eq_some_iff.1 h
          obtain ⟨init, hinit⟩ := List.getLast?_eq_some_iff.1 hlast
          rw [hinit, List.dropLast_concat] at hfront
          rw [HasLexemes, String.toList_append, hinit, List.append_assoc,
            QuoteRule.lexemes?_append (lexemes?_of_constant? hfront) ?_]
          · rw [List.singleton_append, QuoteRule.lexemes?_cons hd, ht]
            simp
          · rintro _ ⟨⟩
            exact hd
      · cases h
  · cases h

/-- A text is read before one that begins with a seam. -/
theorem HasLexemes.append (hs : HasLexemes q s ls)
    (ht : HasLexemes q t us) (hseam : begins isSeam t = true) :
    HasLexemes q (s ++ t) (ls ++ us) := by
  obtain ⟨d, hd, hd'⟩ := (Option.any_eq_true _ _).1 hseam
  rw [HasLexemes, String.toList_append, QuoteRule.lexemes?_append hs, ht]
  · rfl
  · rw [hd]
    rintro _ ⟨⟩
    exact hd'

/-- A text that can stand before any other, with one behind it and a
constant behind that, can still do so. -/
theorem Leads.append (hs : Leads q s ls) (ht : HasLexemes q t us)
    (hc : lead? c = some vs) (hseam : begins isSeam c = true) :
    Leads q (s ++ t ++ c) (ls ++ us ++ vs) := by
  intro r ws hr
  have hbehind := ht.append (Leads.of_lead? hc hr) (begins_append hseam)
  simpa only [String.append_assoc, List.append_assoc] using hs hbehind

end Constants

/-! ### Words, numbers and literals -/

section Leaves

variable {q : QuoteRule} {s : String}

/-- Characters of words go on with the word that was begun. -/
theorem lexemesFrom_of_charClass {cs : List Char}
    (h : ∀ c ∈ cs, charClass c = .word) (word : List Char) :
    lexemesFrom word (cs.map .code) = Lexeme.endWord (word ++ cs) := by
  induction cs generalizing word with
  | nil => rw [List.append_nil]; rfl
  | cons c cs ih =>
      obtain ⟨hc, hcs⟩ := List.forall_mem_cons.1 h
      rw [List.map_cons, lexemesFrom, if_pos hc, ih hcs]
      simp

/-- A character that is in no word is not among characters of words. -/
theorem not_mem_of_charClass {cs : List Char}
    (h : ∀ c ∈ cs, charClass c = .word) {d : Char}
    (hd : charClass d ≠ .word) : d ∉ cs :=
  fun hmem => hd (h d hmem)

/-- Characters of words are one word, unless they are a bracket. -/
theorem hasLexemes_word (hne : s.toList ≠ [])
    (hclass : ∀ c ∈ s.toList, charClass c = .word)
    (hword : Lexeme.ofWord s.toList = .word s) :
    HasLexemes q s [.word s] := by
  have hread := lex_of_quoteFree (q := q)
    (not_mem_of_charClass hclass (d := quote) (by decide))
  obtain ⟨c, cs, hcs⟩ := List.exists_cons_of_ne_nil hne
  rw [HasLexemes, QuoteRule.lexemes?, hread, Option.map_some,
    lexemesFrom_of_charClass hclass, List.nil_append, hcs,
    Lexeme.endWord, ← hcs, hword]
  · simp

/-- A word behind a sign. -/
theorem hasLexemes_signed {sign : Char} {op : Operator}
    (hsign : isSeam sign = true)
    (hop : Lexeme.ofChar? sign = some (.operator op)) {w : String}
    (hw : HasLexemes q w [.word w]) (hs : s.toList = sign :: w.toList) :
    HasLexemes q s [.operator op, .word w] := by
  rw [HasLexemes, hs, QuoteRule.lexemes?_cons hsign, hw, hop]
  rfl

/-- A literal without quotes and backslashes in it. -/
theorem hasLexemes_quoted (hquote : QuoteFree s)
    (hbackslash : backslash ∉ s.toList) :
    HasLexemes q ("'" ++ s ++ "'") [.literal s] := by
  have htext : ("'" ++ s ++ "'").toList = quote :: (s.toList ++ [quote]) := by
    simp [quote]
  have hescape : escapeChars s.toList = s.toList := by
    rw [← toList_escape, escape_of_quoteFree hquote]
  have hlex : lex .doubled .outside (quote :: (s.toList ++ [quote])) =
      some [.literal s] := by
    have hread := lex_escape [] s.toList [quote]
    rw [hescape] at hread
    rw [lex, if_pos rfl, hread]
    simp [lex]
  have hnone : backslash ∉ quote :: (s.toList ++ [quote]) := by
    simpa [quote, backslash] using hbackslash
  rw [HasLexemes, htext, QuoteRule.lexemes?,
    lex_of_no_backslash hnone .outside, hlex]
  rfl

end Leaves

end Sql

end SchemaEvolution

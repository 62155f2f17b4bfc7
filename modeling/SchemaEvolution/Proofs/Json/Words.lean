import SchemaEvolution.Json.Printer
import SchemaEvolution.Json.Token
import SchemaEvolution.Proofs.Text.Digits

/-!
# `SchemaEvolution.Proofs.Json.Words`: words that were written are read

A text of JSON is cut into tokens. Most of them end where they end,
whatever follows; only a number goes on as long as its characters do. So
there are two things to ask of a text: `Cuts`, that it has these tokens
in front of any other text, and `CutsOff`, that it has them in front of
one that does not go on with a character of a number. Texts are put
together by the rules for `++`.

* `escapeChar_cases`: the ways in which a character stands in a string.
* `scanString?_quoted`: a string is read back up to its closing quote.
* `Number.scanNumber?_append`: a number is read back, digit by digit.
* `Cuts.append`, `Cuts.append_cutsOff`, `CutsOff.append_cuts`: texts that
  stand one behind the other.
* `cuts_quote`, `cutsOff_number`: the tokens of strings and numbers.
-/

set_option autoImplicit false

namespace SchemaEvolution.Json

open SchemaEvolution.Text

/-! ### Strings -/

/-- The piece stands for the character. -/
def Piece.StandsFor (p : Piece) (c : Char) : Prop :=
  p = .char c ∨ p = .code c.toNat ∧ c.toNat < 0x20

/-- The two digits that a control character is escaped with. -/
theorem hexValue4?_hexDigit :
    ∀ n < 0x20, hexValue4? '0' '0' (hexDigit (n / 16)) (hexDigit (n % 16)) =
      some n := by
  decide

/-- A character stands in a string as a backslash and a letter, as a
backslash and its number, or as itself. -/
theorem escapeChar_cases (c : Char) :
    (∃ e, e ≠ 'u' ∧ escaped? e = some c ∧ escapeChar c = ['\\', e]) ∨
    (c.toNat < 0x20 ∧ escapeChar c = ['\\', 'u', '0', '0',
      hexDigit (c.toNat / 16), hexDigit (c.toNat % 16)]) ∨
    (c ≠ '"' ∧ c ≠ '\\' ∧ ¬ c.toNat < 0x20 ∧ escapeChar c = [c]) := by
  unfold escapeChar
  split
  · exact .inl ⟨'"', by decide, by simp [escaped?, *], rfl⟩
  split
  · exact .inl ⟨'\\', by decide, by simp [escaped?, *], rfl⟩
  split
  · exact .inl ⟨'b', by decide, by simp [escaped?, *], rfl⟩
  split
  · exact .inl ⟨'f', by decide, by simp [escaped?, *], rfl⟩
  split
  · exact .inl ⟨'n', by decide, by simp [escaped?, *], rfl⟩
  split
  · exact .inl ⟨'r', by decide, by simp [escaped?, *], rfl⟩
  split
  · exact .inl ⟨'t', by decide, by simp [escaped?, *], rfl⟩
  split
  · exact .inr (.inl ⟨‹_›, rfl⟩)
  · exact .inr (.inr ⟨‹_›, ‹_›, ‹_›, rfl⟩)

/-- A character is read back from the way it stands in a string. -/
theorem scanString?_escapeChar (c : Char) :
    ∃ p : Piece, p.StandsFor c ∧ ∀ cs, scanString? (escapeChar c ++ cs) =
      (scanString? cs).map fun (pieces, rest) => (p :: pieces, rest) := by
  rcases escapeChar_cases c with ⟨e, hu, he, h⟩ | ⟨hcontrol, h⟩ |
    ⟨hquote, hslash, hcontrol, h⟩
  · -- A letter behind a backslash, and not the one that a number follows.
    refine ⟨.char c, .inl rfl, fun cs => ?_⟩
    rw [h, List.cons_append, List.singleton_append, scanString?]
    · rw [he]
      cases scanString? cs <;> rfl
    · exact fun _ _ _ _ _ hu' => absurd hu' hu
  · refine ⟨.code c.toNat, .inr ⟨rfl, hcontrol⟩, fun cs => ?_⟩
    rw [h]
    simp only [List.cons_append, List.nil_append]
    rw [scanString?, hexValue4?_hexDigit _ hcontrol]
    cases scanString? cs <;> rfl
  · refine ⟨.char c, .inl rfl, fun cs => ?_⟩
    rw [h, List.singleton_append, scanString?]
    · rw [if_neg (by simp [hslash, hcontrol])]
      cases scanString? cs <;> rfl
    · exact hquote
    · exact fun _ _ _ _ _ hc => absurd hc hslash
    · exact fun _ _ hc => absurd hc hslash

/-- A piece that stands for a character spells it. -/
theorem spell?_cons {p : Piece} {c : Char} (h : p.StandsFor c)
    (pieces : List Piece) :
    spell? (p :: pieces) = (spell? pieces).map (c :: ·) := by
  rcases h with rfl | ⟨rfl, hcontrol⟩
  · rw [spell?]
  · -- A control character is no half of a surrogate pair.
    have hhigh : ¬ (0xD800 ≤ c.toNat ∧ c.toNat < 0xDC00) := by omega
    have hlow : ¬ (0xDC00 ≤ c.toNat ∧ c.toNat < 0xE000) := by omega
    have hhalf : ¬ (0xD800 ≤ c.toNat ∧ c.toNat < 0xE000) := by omega
    cases pieces with
    | nil => simp [spell?, hhalf, Char.ofNat_toNat]
    | cons q pieces =>
        cases q with
        | char d => simp [spell?, hhalf, Char.ofNat_toNat]
        | code n => rw [spell?, if_neg hhigh, if_neg hlow, Char.ofNat_toNat]

/-- A string is read back up to its closing quote. -/
theorem scanString?_quoted (cs rest : List Char) :
    ∃ pieces, scanString? (cs.flatMap escapeChar ++ '"' :: rest) =
      some (pieces, rest) ∧ spell? pieces = some cs := by
  induction cs with
  | nil => exact ⟨[], rfl, rfl⟩
  | cons c cs ih =>
      obtain ⟨p, hp, hscan⟩ := scanString?_escapeChar c
      obtain ⟨pieces, hpieces, hspell⟩ := ih
      refine ⟨p :: pieces, ?_, ?_⟩
      · rw [List.flatMap_cons, List.append_assoc, hscan, hpieces]
        rfl
      · rw [spell?_cons hp, hspell]
        rfl

/-! ### Numbers -/

/-- The characters that a number can go on with. -/
def isNumeric (c : Char) : Bool :=
  c.isDigit || c == '.' || c == 'e' || c == 'E'

/-- A number is made of the digits that a text can give it: there is one
before the point, and a zero stands alone there; so is there one in the
exponent. -/
structure Number.Spelled (n : Number) : Prop where
  whole : n.whole = ['0'] ∨ n.whole ≠ [] ∧ n.whole.head? ≠ some '0'
  wholeDigits : ∀ c ∈ n.whole, c.isDigit = true
  fraction : ∀ c ∈ n.fraction, c.isDigit = true
  exponent : ∀ e ∈ n.exponent, e.2 ≠ [] ∧ ∀ c ∈ e.2, c.isDigit = true

/-- There is a digit before the point. -/
theorem Number.Spelled.whole_ne_nil {n : Number} (h : n.Spelled) :
    n.whole ≠ [] := by
  rcases h.whole with hzero | ⟨hne, -⟩
  · simp [hzero]
  · exact hne

/-- The number of an integer is. -/
theorem Number.spelled_ofInt (i : Int) : (Number.ofInt i).Spelled where
  whole := by
    by_cases h : (Nat.toDigits 10 i.natAbs).head? = some '0'
    · obtain ⟨rest, hrest⟩ := List.head?_eq_some_iff.mp h
      have hzero := toDigits_eq_zero_cons hrest
      exact .inl (by rw [ofInt, hzero]; rfl)
    · exact .inr ⟨Nat.toDigits_ne_nil, h⟩
  wholeDigits := fun _ => isDigit_of_mem_toDigits
  fraction := by simp [ofInt]
  exponent := by simp [ofInt]

/-- A text that goes on with no character of a number goes on with none
of these. -/
theorem clear_of_isNumeric {cs : List Char} (h : Clear isNumeric cs) :
    Clear Char.isDigit cs ∧ cs.head? ≠ some '.' ∧ cs.head? ≠ some 'e' ∧
      cs.head? ≠ some 'E' := by
  cases cs with
  | nil => simp
  | cons c cs =>
      have hc := clear_cons.mp h
      simp only [isNumeric, Bool.or_eq_false_iff, beq_eq_false_iff_ne] at hc
      simp [hc.1.1.1, hc.1.1.2, hc.1.2, hc.2]

/-- Digits are taken up to where something else follows. -/
theorem scanDigits?_append {ds rest : List Char} (hne : ds ≠ [])
    (hds : ∀ c ∈ ds, c.isDigit = true) (hrest : Clear Char.isDigit rest) :
    scanDigits? (ds ++ rest) = some (ds, rest) := by
  rw [scanDigits?, takeWhile_append_clear hds hrest,
    dropWhile_append_clear hds hrest]
  cases ds with
  | nil => exact absurd rfl hne
  | cons d ds => rfl

namespace Number

variable {n : Number} {rest : List Char}

/-- The digits after the point, behind it. -/
def fractionChars (n : Number) : List Char :=
  if n.fraction.isEmpty then [] else '.' :: n.fraction

/-- The digits of the exponent, behind its mark and its sign. -/
def exponentChars (n : Number) : List Char :=
  match n.exponent with
  | none => []
  | some (negative, ds) =>
      if negative then 'e' :: '-' :: ds else 'e' :: ds

/-- The text of a number is its parts one behind the other, of which only the
digits before the point are always there. -/
theorem toList_text (n : Number) :
    n.text.toList = (if n.negative then ['-'] else []) ++
      (n.whole ++ (n.fractionChars ++ n.exponentChars)) := by
  unfold text fractionChars exponentChars
  cases n.negative <;> cases n.fraction <;> cases n.exponent with
  | none => simp
  | some e => cases e with
    | mk negative ds => cases negative <;> simp

/-- An exponent is read in front of a text that goes on with no character
of a number. -/
theorem scanExponent?_append (h : n.Spelled) (hrest : Clear isNumeric rest) :
    scanExponent? (n.exponentChars ++ rest) = some (n.exponent, rest) := by
  obtain ⟨hdigit, -, he, hE⟩ := clear_of_isNumeric hrest
  unfold exponentChars
  cases hexponent : n.exponent with
  | none =>
      cases rest with
      | nil => rfl
      | cons c rest =>
          show scanExponent? (c :: rest) = _
          have hne : c ≠ 'e' := fun hc => he (by rw [hc]; rfl)
          have hnE : c ≠ 'E' := fun hc => hE (by rw [hc]; rfl)
          unfold scanExponent?
          exact if_neg (by simp [hne, hnE])
  | some e =>
      obtain ⟨negative, ds⟩ := e
      obtain ⟨hne, hds⟩ := h.exponent _ hexponent
      have hpower : ∀ b, scanPower? b (ds ++ rest) = some (some (b, ds), rest) :=
        fun b => by rw [scanPower?, scanDigits?_append hne hds hdigit]; rfl
      cases negative with
      | true =>
          show scanExponent? ('e' :: '-' :: (ds ++ rest)) = _
          rw [scanExponent?, if_pos (.inl rfl)]
          exact hpower true
      | false =>
          show scanExponent? ('e' :: (ds ++ rest)) = _
          -- The digits begin with none of the signs.
          have hsign : ∀ sign : Char, sign.isDigit = false →
              ∀ more, ds ++ rest ≠ sign :: more := by
            rintro sign hsign more heq
            obtain ⟨d, ds', rfl⟩ := List.exists_cons_of_ne_nil hne
            rw [← (List.cons.inj heq).1, hds d List.mem_cons_self] at hsign
            cases hsign
          rw [scanExponent?, if_pos (.inl rfl)]
          · exact hpower false
          · exact hsign '-' rfl
          · exact hsign '+' rfl

/-- A fraction is read in front of a text that goes on with no digit and
no point. -/
theorem scanFraction?_append (h : n.Spelled)
    (hdigit : Clear Char.isDigit rest) (hpoint : rest.head? ≠ some '.') :
    scanFraction? (n.fractionChars ++ rest) = some (n.fraction, rest) := by
  unfold fractionChars
  cases hfraction : n.fraction with
  | nil =>
      show scanFraction? rest = _
      unfold scanFraction?
      split
      · simp at hpoint
      · rfl
  | cons d ds =>
      show scanDigits? (d :: ds ++ rest) = _
      have hds := h.fraction
      rw [hfraction] at hds
      exact scanDigits?_append (by simp) hds hdigit

/-- A whole part is read in front of a text that goes on with no
digit. -/
theorem scanWhole?_append (h : n.Spelled)
    (hdigit : Clear Char.isDigit rest) :
    scanWhole? (n.whole ++ rest) = some (n.whole, rest) := by
  rcases h.whole with hzero | ⟨hne, hhead⟩
  · rw [hzero]
    rfl
  · obtain ⟨d, ds, hwhole⟩ := List.exists_cons_of_ne_nil hne
    have hds := h.wholeDigits
    rw [hwhole] at hhead hds ⊢
    rw [List.cons_append]
    unfold scanWhole?
    split
    · rename_i heq
      cases (List.cons.inj heq).1
      simp at hhead
    · exact scanDigits?_append (by simp) hds hdigit

/-- A number is read back in front of a text that goes on with no
character of a number. -/
theorem scanMagnitude?_append (h : n.Spelled)
    (hrest : Clear isNumeric rest) :
    scanMagnitude? n.negative (n.whole ++ (n.fractionChars ++
      n.exponentChars) ++ rest) = some (n, rest) := by
  obtain ⟨hdigit, hpoint, -, -⟩ := clear_of_isNumeric hrest
  -- Behind the fraction there is the exponent or the rest.
  have hexponent : Clear Char.isDigit (n.exponentChars ++ rest) ∧
      (n.exponentChars ++ rest).head? ≠ some '.' := by
    unfold exponentChars
    rcases n.exponent with _ | ⟨_ | _, ds⟩
    · exact ⟨hdigit, hpoint⟩
    · exact ⟨clear_cons.mpr rfl, by simp⟩
    · exact ⟨clear_cons.mpr rfl, by simp⟩
  have hfraction : Clear Char.isDigit
      (n.fractionChars ++ (n.exponentChars ++ rest)) := by
    unfold fractionChars
    split
    · exact hexponent.1
    · exact clear_cons.mpr rfl
  rw [List.append_assoc, List.append_assoc, scanMagnitude?,
    scanWhole?_append h hfraction]
  simp only [Option.bind_eq_bind, Option.bind_some,
    scanFraction?_append h hexponent.1 hexponent.2,
    scanExponent?_append h hrest]
  rfl

/-- So it is with its sign. -/
theorem scanNumber?_append (h : n.Spelled) (hrest : Clear isNumeric rest) :
    scanNumber? (n.text.toList ++ rest) = some (n, rest) := by
  have hmagnitude := scanMagnitude?_append h hrest
  rw [toList_text]
  cases hnegative : n.negative with
  | true =>
      rw [hnegative] at hmagnitude
      exact hmagnitude
  | false =>
      rw [hnegative] at hmagnitude
      -- The whole part does not begin with a sign.
      obtain ⟨d, ds, hwhole⟩ := List.exists_cons_of_ne_nil h.whole_ne_nil
      have hd := h.wholeDigits d (by simp [hwhole])
      rw [hwhole] at hmagnitude ⊢
      show scanNumber? (d :: _) = _
      unfold scanNumber?
      split
      · rename_i heq
        cases (List.cons.inj heq).1
        cases hd
      · exact hmagnitude

end Number

/-! ### Tokens -/

/-- White space is passed over before a token. -/
theorem lex?_cons_of_isSpace {c : Char} {cs : List Char}
    (h : isSpace c = true) : lex? (c :: cs) = lex? cs := by
  rw [lex?, if_pos h]

/-- No digit is white space, so a number is not passed over. -/
theorem isSpace_of_isDigit {c : Char} (h : c.isDigit = true) :
    isSpace c = false := by
  refine Bool.eq_false_iff.mpr fun hspace => ?_
  simp only [isSpace, Bool.or_eq_true, beq_iff_eq] at hspace
  rcases hspace with ((rfl | rfl) | rfl) | rfl <;> cases h

/-- White space is passed over. -/
theorem lex?_spaces {cs : List Char} (h : ∀ c ∈ cs, isSpace c = true)
    (rest : List Char) : lex? (cs ++ rest) = lex? rest := by
  induction cs with
  | nil => rfl
  | cons c cs ih =>
      rw [List.cons_append,
        lex?_cons_of_isSpace (h c List.mem_cons_self)]
      exact ih fun d hd => h d (List.mem_cons_of_mem c hd)

/-- A token that comes next is the first one. -/
theorem lex?_of_next? {c : Char} {cs rest : List Char} {t : Token}
    (hspace : isSpace c = false) (h : Token.next? (c :: cs) = some (t, rest)) :
    lex? (c :: cs) = (lex? rest).map (t :: ·) := by
  rw [lex?, if_neg (by simp [hspace])]
  split
  · rename_i heq
    rw [h] at heq
    cases heq
    rfl
  · rename_i heq
    rw [h] at heq
    cases heq

/-- A text that begins with a digit or a minus begins with a number. -/
theorem next?_of_number {c : Char} {cs rest : List Char} {n : Number}
    (hc : c.isDigit = true ∨ c = '-')
    (h : scanNumber? (c :: cs) = some (n, rest)) :
    Token.next? (c :: cs) = some (.number n, rest) := by
  have hno : ∀ d : Char, d.isDigit = false → d ≠ '-' → c ≠ d := by
    rintro d hdigit hminus rfl
    rcases hc with hc | hc
    · rw [hdigit] at hc
      cases hc
    · exact hminus hc
  -- Every other token begins with another character.
  unfold Token.next?
  split
  all_goals first
    | (rename_i heq; exact absurd (List.cons.inj heq).1 (hno _ rfl (by decide)))
    | rw [h]

/-! ### Texts and their tokens -/

/-- The tokens of a text that goes on in any way are these and those of
what it goes on with. -/
def Cuts (cs : List Char) (ts : List Token) : Prop :=
  ∀ rest, lex? (cs ++ rest) = (lex? rest).map (ts ++ ·)

/-- So they are if it does not go on with a character of a number. -/
def CutsOff (cs : List Char) (ts : List Token) : Prop :=
  ∀ rest, Clear isNumeric rest →
    lex? (cs ++ rest) = (lex? rest).map (ts ++ ·)

section Cuts

variable {cs ds : List Char} {ts us : List Token}

/-- A text that may go on in any way may go on with what is in no number. -/
theorem Cuts.cutsOff (h : Cuts cs ts) : CutsOff cs ts :=
  fun rest _ => h rest

/-- A text that is nothing but white space has no tokens. -/
theorem cuts_spaces (h : ∀ c ∈ cs, isSpace c = true) : Cuts cs [] := by
  intro rest
  rw [lex?_spaces h]
  cases lex? rest <;> rfl

/-- Texts stand one behind the other, and so do their tokens. -/
theorem Cuts.append (h : Cuts cs ts) (h' : Cuts ds us) :
    Cuts (cs ++ ds) (ts ++ us) := by
  intro rest
  rw [List.append_assoc, h, h', Option.map_map]
  simp [Function.comp_def]

/-- What such a text ends with decides what may follow. -/
theorem Cuts.append_cutsOff (h : Cuts cs ts) (h' : CutsOff ds us) :
    CutsOff (cs ++ ds) (ts ++ us) := by
  intro rest hrest
  rw [List.append_assoc, h, h' rest hrest, Option.map_map]
  simp [Function.comp_def]

/-- A text that must not go on with a character of a number may go on
with another one. -/
theorem CutsOff.append_cuts {d : Char} (h : CutsOff cs ts)
    (h' : Cuts (d :: ds) us) (hd : isNumeric d = false) :
    Cuts (cs ++ d :: ds) (ts ++ us) := by
  intro rest
  rw [List.append_assoc, h (d :: ds ++ rest) (clear_cons.mpr hd), h',
    Option.map_map]
  simp [Function.comp_def]

/-- A token that comes next whatever follows is a text of its own. -/
theorem cuts_of_next? {c : Char} {t : Token} (hspace : isSpace c = false)
    (h : ∀ rest, Token.next? (c :: cs ++ rest) = some (t, rest)) :
    Cuts (c :: cs) [t] := by
  intro rest
  exact lex?_of_next? hspace (h rest)

/-- So is a word that is such a token. -/
theorem cuts_word {word : String} {c : Char} {t : Token}
    (hword : word.toList = c :: cs) (hspace : isSpace c = false)
    (h : ∀ rest, Token.next? (c :: cs ++ rest) = some (t, rest)) :
    Cuts word.toList [t] := by
  rw [hword]
  exact cuts_of_next? hspace h

/-- So is a sign with white space behind it. -/
theorem cuts_sign_spaces {c : Char} {t : Token}
    (hspace : isSpace c = false)
    (h : ∀ rest, Token.next? (c :: rest) = some (t, rest))
    (hcs : ∀ d ∈ cs, isSpace d = true) : Cuts (c :: cs) [t] := by
  have hsign : Cuts [c] [t] := cuts_of_next? hspace h
  exact hsign.append (cuts_spaces hcs)

/-- The word for no value is a token, and needs no white space behind it. -/
theorem cuts_null : Cuts "null".toList [.null] :=
  cuts_word (show _ = ['n', 'u', 'l', 'l'] from rfl) rfl fun _ => rfl

/-- So are the words for the truth values. -/
theorem cuts_bool (b : Bool) :
    Cuts (if b then "true" else "false").toList [.bool b] := by
  cases b with
  | true =>
      exact cuts_word (show _ = ['t', 'r', 'u', 'e'] from rfl) rfl
        fun _ => rfl
  | false =>
      exact cuts_word (show _ = ['f', 'a', 'l', 's', 'e'] from rfl) rfl
        fun _ => rfl

/-- A string is one token, whether it spells a text or not. -/
theorem cuts_quote (s : Json.Text) : Cuts (quote s).toList [.string s] := by
  cases s with
  | none => exact cuts_of_next? rfl fun rest => rfl
  | some s =>
      have hlist : (quote (some s)).toList =
          '"' :: (s.toList.flatMap escapeChar ++ ['"']) := by
        simp [quote]
      rw [hlist]
      refine cuts_of_next? rfl fun rest => ?_
      obtain ⟨pieces, hscan, hspell⟩ := scanString?_quoted s.toList rest
      rw [List.cons_append, List.append_assoc, List.singleton_append,
        Token.next?, hscan]
      simp [hspell]

/-- A number is one token. -/
theorem cutsOff_number {n : Number} (h : n.Spelled) :
    CutsOff n.text.toList [.number n] := by
  intro rest hrest
  have hscan := Number.scanNumber?_append h hrest
  -- The text begins with a sign or a digit.
  have hfirst : ∃ c cs, n.text.toList = c :: cs ∧
      (c.isDigit = true ∨ c = '-') := by
    rw [Number.toList_text]
    cases n.negative with
    | true => exact ⟨'-', _, rfl, .inr rfl⟩
    | false =>
        obtain ⟨d, ds, hwhole⟩ := List.exists_cons_of_ne_nil h.whole_ne_nil
        rw [hwhole]
        exact ⟨d, _, rfl, .inl (h.wholeDigits d (by simp [hwhole]))⟩
  obtain ⟨c, cs, htext, hc⟩ := hfirst
  rw [htext, List.cons_append] at hscan ⊢
  have hspace : isSpace c = false := by
    rcases hc with hc | rfl
    · exact isSpace_of_isDigit hc
    · rfl
  exact lex?_of_next? hspace (next?_of_number hc hscan)

end Cuts

end SchemaEvolution.Json

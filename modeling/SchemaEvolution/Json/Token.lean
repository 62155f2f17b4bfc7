import SchemaEvolution.Json.Basic

/-!
# `SchemaEvolution.Json.Token`: the words of a JSON text

`lex?` cuts a text into tokens. White space stands only between
tokens and is dropped. A string is read in two passes: `scanString?`
finds its end and its pieces, `spell?` joins the escapes that name the
halves of one surrogate pair.

* `Token.next?_length_lt`: a token takes at least one character, so
  cutting comes to an end.
-/

set_option autoImplicit false

namespace SchemaEvolution.Json

open SchemaEvolution.Text

/-- A word of a JSON text. -/
inductive Token where
  | openBracket
  | closeBracket
  | openBrace
  | closeBrace
  | comma
  | colon
  | null
  | bool (b : Bool)
  | number (n : Number)
  | string (s : Json.Text)
deriving DecidableEq

/-- A piece of a string: a character as it stands, or the number that
an escape gives. -/
inductive Piece where
  | char (c : Char)
  | code (n : Nat)
deriving DecidableEq

/-- White space between tokens. -/
def isSpace (c : Char) : Bool :=
  c == ' ' || c == '\n' || c == '\t' || c == '\r'

/-- The value of a hexadecimal digit. -/
def hexValue? (c : Char) : Option Nat :=
  if c.isDigit then some (c.toNat - '0'.toNat)
  else if 'a' ≤ c ∧ c ≤ 'f' then some (c.toNat - 'a'.toNat + 10)
  else if 'A' ≤ c ∧ c ≤ 'F' then some (c.toNat - 'A'.toNat + 10)
  else none

/-- The number that four hexadecimal digits spell. -/
def hexValue4? (a b c d : Char) : Option Nat := do
  let a ← hexValue? a
  let b ← hexValue? b
  let c ← hexValue? c
  let d ← hexValue? d
  return ((a * 16 + b) * 16 + c) * 16 + d

/-- The character that a backslash and one letter stand for. -/
def escaped? : Char → Option Char
  | '"' => some '"'
  | '\\' => some '\\'
  | '/' => some '/'
  | 'b' => some '\x08'
  | 'f' => some '\x0c'
  | 'n' => some '\n'
  | 'r' => some '\r'
  | 't' => some '\t'
  | _ => none

/-- The pieces of a string up to its closing quote, and the text after
it. A control character has to be escaped. -/
def scanString? : List Char → Option (List Piece × List Char)
  | [] => none
  | '"' :: rest => some ([], rest)
  | '\\' :: 'u' :: a :: b :: c :: d :: rest =>
      match hexValue4? a b c d, scanString? rest with
      | some n, some (pieces, rest) => some (.code n :: pieces, rest)
      | _, _ => none
  | '\\' :: e :: rest =>
      match escaped? e, scanString? rest with
      | some c, some (pieces, rest) => some (.char c :: pieces, rest)
      | _, _ => none
  | c :: rest =>
      if c.toNat < 0x20 ∨ c = '\\' then none
      else
        match scanString? rest with
        | some (pieces, rest) => some (.char c :: pieces, rest)
        | none => none

/-- The characters that pieces spell. A code in the range of the high
surrogates has to be followed by one in the range of the low ones, and
those stand nowhere else. -/
def spell? : List Piece → Option (List Char)
  | [] => some []
  | .char c :: rest => (spell? rest).map (c :: ·)
  | .code high :: .code low :: rest =>
      if 0xD800 ≤ high ∧ high < 0xDC00 then
        if 0xDC00 ≤ low ∧ low < 0xE000 then
          let n := 0x10000 + (high - 0xD800) * 0x400 + (low - 0xDC00)
          (spell? rest).map (Char.ofNat n :: ·)
        else none
      else if 0xDC00 ≤ high ∧ high < 0xE000 then none
      else (spell? (.code low :: rest)).map (Char.ofNat high :: ·)
  | .code n :: rest =>
      if 0xD800 ≤ n ∧ n < 0xE000 then none
      else (spell? rest).map (Char.ofNat n :: ·)

/-- The digits at the front of the text, of which there is one at
least. -/
def scanDigits? (cs : List Char) : Option (List Char × List Char) :=
  match cs.takeWhile Char.isDigit with
  | [] => none
  | ds => some (ds, cs.dropWhile Char.isDigit)

/-- The whole part of a number: a zero, or digits that do not begin
with one. -/
def scanWhole? : List Char → Option (List Char × List Char)
  | '0' :: rest => some (['0'], rest)
  | cs => scanDigits? cs

/-- The fraction of a number: nothing, or a point and digits. -/
def scanFraction? : List Char → Option (List Char × List Char)
  | '.' :: rest => scanDigits? rest
  | cs => some ([], cs)

/-- The digits of an exponent, after its sign. -/
def scanPower? (negative : Bool) (cs : List Char) :
    Option (Option (Bool × List Char) × List Char) :=
  (scanDigits? cs).map fun (ds, rest) => (some (negative, ds), rest)

/-- The exponent of a number: nothing, or `e`, a sign and digits. -/
def scanExponent? :
    List Char → Option (Option (Bool × List Char) × List Char)
  | e :: rest =>
      if e = 'e' ∨ e = 'E' then
        match rest with
        | '-' :: rest => scanPower? true rest
        | '+' :: rest => scanPower? false rest
        | rest => scanPower? false rest
      else some (none, e :: rest)
  | [] => some (none, [])

/-- A number without its sign. -/
def scanMagnitude? (negative : Bool) (cs : List Char) :
    Option (Number × List Char) := do
  let (whole, cs) ← scanWhole? cs
  let (fraction, cs) ← scanFraction? cs
  let (exponent, cs) ← scanExponent? cs
  return (⟨negative, whole, fraction, exponent⟩, cs)

/-- A number at the front of the text. -/
def scanNumber? : List Char → Option (Number × List Char)
  | '-' :: rest => scanMagnitude? true rest
  | cs => scanMagnitude? false cs

/-- The token at the front of a text that starts with one. -/
def Token.next? : List Char → Option (Token × List Char)
  | '[' :: rest => some (.openBracket, rest)
  | ']' :: rest => some (.closeBracket, rest)
  | '{' :: rest => some (.openBrace, rest)
  | '}' :: rest => some (.closeBrace, rest)
  | ',' :: rest => some (.comma, rest)
  | ':' :: rest => some (.colon, rest)
  | 'n' :: 'u' :: 'l' :: 'l' :: rest => some (.null, rest)
  | 't' :: 'r' :: 'u' :: 'e' :: rest => some (.bool true, rest)
  | 'f' :: 'a' :: 'l' :: 's' :: 'e' :: rest => some (.bool false, rest)
  | '"' :: rest =>
      match scanString? rest with
      | some (pieces, rest) =>
          some (.string ((spell? pieces).map String.ofList), rest)
      | none => none
  | cs =>
      match scanNumber? cs with
      | some (n, rest) => some (.number n, rest)
      | none => none

/-! ### Every token takes characters -/

/-- The end of a string lies after its beginning. -/
theorem scanString?_length_lt {cs : List Char} {pieces : List Piece}
    {rest : List Char} (h : scanString? cs = some (pieces, rest)) :
    rest.length < cs.length := by
  fun_induction scanString? cs generalizing pieces rest <;>
    simp_all <;> grind

/-- Digits take at least one character. -/
theorem scanDigits?_length_lt {cs ds rest : List Char}
    (h : scanDigits? cs = some (ds, rest)) : rest.length < cs.length := by
  unfold scanDigits? at h
  have hsplit := congrArg List.length
    (List.takeWhile_append_dropWhile (p := Char.isDigit) (l := cs))
  rw [List.length_append] at hsplit
  split at h
  · simp at h
  · rename_i hne
    have hpos := List.length_pos_iff.mpr hne
    simp only [Option.some.injEq, Prod.mk.injEq] at h
    rw [← h.2]
    omega

/-- A whole part has at least one digit. -/
theorem scanWhole?_length_lt {cs ds rest : List Char}
    (h : scanWhole? cs = some (ds, rest)) : rest.length < cs.length := by
  unfold scanWhole? at h
  split at h
  · simp_all
  · exact scanDigits?_length_lt h

/-- A fraction gives no characters back. -/
theorem scanFraction?_length_le {cs ds rest : List Char}
    (h : scanFraction? cs = some (ds, rest)) :
    rest.length ≤ cs.length := by
  unfold scanFraction? at h
  split at h
  · have := scanDigits?_length_lt h
    rw [List.length_cons]
    omega
  · simp_all

/-- The digits of an exponent give no characters back. -/
theorem scanPower?_length_le {b : Bool} {cs rest : List Char}
    {e : Option (Bool × List Char)}
    (h : scanPower? b cs = some (e, rest)) :
    rest.length ≤ cs.length := by
  obtain ⟨⟨ds, r⟩, hd, heq⟩ := Option.map_eq_some_iff.mp h
  simp only [Prod.mk.injEq] at heq
  rw [← heq.2]
  exact Nat.le_of_lt (scanDigits?_length_lt hd)

/-- An exponent gives no characters back. -/
theorem scanExponent?_length_le {cs rest : List Char}
    {e : Option (Bool × List Char)}
    (h : scanExponent? cs = some (e, rest)) :
    rest.length ≤ cs.length := by
  unfold scanExponent? at h
  split at h
  · rename_i c r
    split at h
    · split at h <;>
        · have := scanPower?_length_le h
          simp only [List.length_cons] at *
          omega
    · simp_all
  · simp_all

/-- A number without its sign takes at least one character. -/
theorem scanMagnitude?_length_lt {b : Bool} {cs rest : List Char}
    {n : Number} (h : scanMagnitude? b cs = some (n, rest)) :
    rest.length < cs.length := by
  simp only [scanMagnitude?, Option.bind_eq_bind,
    Option.bind_eq_some_iff] at h
  obtain ⟨⟨_, _⟩, hw, ⟨_, _⟩, hf, ⟨_, _⟩, he, hr⟩ := h
  have h1 := scanWhole?_length_lt hw
  have h2 := scanFraction?_length_le hf
  have h3 := scanExponent?_length_le he
  simp only [pure, Option.some.injEq, Prod.mk.injEq] at hr
  rw [← hr.2]
  simp only at h1 h2 h3 ⊢
  omega

/-- A number takes at least one character. -/
theorem scanNumber?_length_lt {cs rest : List Char} {n : Number}
    (h : scanNumber? cs = some (n, rest)) : rest.length < cs.length := by
  unfold scanNumber? at h
  split at h
  · have := scanMagnitude?_length_lt h
    rw [List.length_cons]
    omega
  · exact scanMagnitude?_length_lt h

/-- A token takes at least one character. -/
theorem Token.next?_length_lt {cs rest : List Char} {t : Token}
    (h : Token.next? cs = some (t, rest)) : rest.length < cs.length := by
  unfold Token.next? at h
  split at h <;> try (simp_all; done)
  all_goals try
    (simp only [Option.some.injEq, Prod.mk.injEq] at h
     rw [← h.2]; simp only [List.length_cons]; omega)
  · split at h
    · rename_i hs
      have := scanString?_length_lt hs
      simp only [Option.some.injEq, Prod.mk.injEq] at h
      rw [← h.2, List.length_cons]
      omega
    · simp at h
  · split at h
    · rename_i hs
      simp only [Option.some.injEq, Prod.mk.injEq] at h
      rw [← h.2]
      exact scanNumber?_length_lt hs
    · simp at h

/-! ### Cutting a whole text -/

/-- The tokens of a text, if it is made of tokens. -/
def lex? : List Char → Option (List Token)
  | [] => some []
  | c :: cs =>
      if isSpace c then lex? cs
      else
        match _h : Token.next? (c :: cs) with
        | some (t, rest) => (lex? rest).map (t :: ·)
        | none => none
termination_by cs => cs.length
decreasing_by
  · simp
  · exact Token.next?_length_lt _h

end SchemaEvolution.Json

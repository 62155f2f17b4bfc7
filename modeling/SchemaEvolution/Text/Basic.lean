/-!
# `SchemaEvolution.Text.Basic`: names, blanks and numbers in a text

Database names are compared with the case of the letters `A` to `Z`
ignored and every other character taken as it is. A name, a schema or a
default that holds nothing but white space counts as absent. White space
is Unicode's `White_Space` property, a set of 25 characters; zero-width
characters are not in it.

Dates, times and numbers share the small readers and writers of digits. A
reader takes what it wants from the front of a list of characters and
returns the rest. A numeral is an optional sign, digits and optionally a
point with digits. It stands for its exact value; no digit is rounded
away.

* `SameName.refl`, `SameName.symm`, `SameName.trans`: comparing names
  this way is an equivalence.
* `isWhiteSpace_of_isWhitespace`: every character that `Char` calls
  white space is in the set.
* `trimBlanks_of_isBlank`: nothing is left of a blank text.
* `number?_length_lt`: reading a number uses up characters.
* `digitsValue_toDigits`: a number is read back from its own digits.
* `Numeral.parse?_whole_ne_nil`: a numeral has a digit before the point.
* `intercalate_induction`: what holds of texts holds of them in a row.
-/

set_option autoImplicit false

namespace SchemaEvolution.Text

/-! ### Texts in a row -/

/-- Texts in a row are the first one, and each of the others behind a
separator. -/
theorem intercalate_cons (separator t : String) (texts : List String) :
    separator.intercalate (t :: texts) =
      t ++ String.join (texts.map (separator ++ ·)) := by
  induction texts generalizing t with
  | nil => simp
  | cons u rest ih =>
      rw [String.intercalate_cons_cons, ih, List.map_cons,
        String.join_cons, String.append_assoc, String.append_assoc]

/-- What holds of each of some texts holds of them in a row, if it holds
of two texts with the separator between them when it holds of both. -/
theorem intercalate_induction {P : String → Prop} {separator : String}
    (between : ∀ s t, P s → P t → P (s ++ separator ++ t))
    {texts : List String} (hne : texts ≠ []) (h : ∀ t ∈ texts, P t) :
    P (separator.intercalate texts) := by
  induction texts with
  | nil => exact absurd rfl hne
  | cons t rest ih =>
      obtain ⟨ht, hrest⟩ := List.forall_mem_cons.1 h
      cases rest with
      | nil => rwa [String.intercalate_singleton]
      | cons u rest =>
          rw [String.intercalate_cons_cons]
          exact between _ _ ht (ih (List.cons_ne_nil u rest) hrest)

/-! ### Names that differ only in case -/

/-- The text with `A` to `Z` in lower case. -/
def foldCase (s : String) : String :=
  String.ofList (s.toList.map Char.toLower)

/-- Two names are the same name when they differ only in the case of
the letters `A` to `Z`. -/
def SameName (a b : String) : Prop :=
  foldCase a = foldCase b

instance (a b : String) : Decidable (SameName a b) :=
  inferInstanceAs (Decidable (foldCase a = foldCase b))

namespace SameName

/-- A name is the same name as itself. -/
theorem refl (a : String) : SameName a a := rfl

/-- Being the same name is symmetric. -/
theorem symm {a b : String} (h : SameName a b) : SameName b a :=
  Eq.symm h

/-- Being the same name is transitive. -/
theorem trans {a b c : String} (hab : SameName a b)
    (hbc : SameName b c) : SameName a c :=
  Eq.trans hab hbc

end SameName

/-! ### White space -/

/-- The characters with Unicode's `White_Space` property. -/
def isWhiteSpace (c : Char) : Bool :=
  let n := c.toNat
  (0x9 ≤ n && n ≤ 0xD) || n == 0x20 || n == 0x85 || n == 0xA0 ||
    n == 0x1680 || (0x2000 ≤ n && n ≤ 0x200A) || n == 0x2028 ||
    n == 0x2029 || n == 0x202F || n == 0x205F || n == 0x3000

/-- Whether a text holds nothing but white space. -/
def isBlank (s : String) : Bool :=
  s.toList.all isWhiteSpace

/-- The text without the white space at its two ends. -/
def trimBlanks (s : String) : String :=
  String.ofList
    ((s.toList.dropWhile isWhiteSpace).reverse.dropWhile
      isWhiteSpace).reverse

/-- The text itself unless it is blank. -/
def nonBlank? (s : String) : Option String :=
  if isBlank s then none else some s

/-- Core's white space is part of Unicode's. -/
theorem isWhiteSpace_of_isWhitespace {c : Char}
    (h : c.isWhitespace = true) : isWhiteSpace c = true := by
  simp only [Char.isWhitespace, Bool.or_eq_true,
    decide_eq_true_eq] at h
  rcases h with ((rfl | rfl) | rfl) | rfl <;> decide

/-- Nothing is left of a blank text. -/
theorem trimBlanks_of_isBlank {s : String} (h : isBlank s = true) :
    trimBlanks s = "" := by
  have hdrop : ∀ cs : List Char, cs.all isWhiteSpace = true →
      cs.dropWhile isWhiteSpace = [] := by
    intro cs
    induction cs with
    | nil => intro _; rfl
    | cons c rest ih =>
        intro hall
        simp only [List.all_cons, Bool.and_eq_true] at hall
        simp [hall.1, ih hall.2]
  simp [trimBlanks, hdrop s.toList h]

/-! ### Decimal digits -/

/-- The number that decimal digits spell. -/
def digitsValue (ds : List Char) : Nat :=
  Nat.ofDigitChars 10 ds 0

/-- The number at the front of the text, of at most `most` digits. -/
def number? (most : Nat) (cs : List Char) : Option (Nat × List Char) :=
  match (cs.take most).takeWhile Char.isDigit with
  | [] => none
  | d :: ds => some (digitsValue (d :: ds), cs.drop (ds.length + 1))

/-- The text after the character `c`, which has to come first. -/
def expect? (c : Char) : List Char → Option (List Char)
  | [] => none
  | d :: rest => if d = c then some rest else none

/-- The text from its first character that is not white space. -/
def skipBlanks (cs : List Char) : List Char :=
  cs.dropWhile isWhiteSpace

/-- The digits of `n`, with zeros in front up to `width` of them. -/
def padded (width n : Nat) : String :=
  let ds := Nat.toDigits 10 n
  String.ofList (List.replicate (width - ds.length) '0' ++ ds)

/-- A number takes at least one character. -/
theorem number?_length_lt {most n : Nat} {cs rest : List Char}
    (h : number? most cs = some (n, rest)) : rest.length < cs.length := by
  unfold number? at h
  split at h
  · simp at h
  · rename_i d ds hds
    have hlen : ds.length + 1 ≤ cs.length := by
      have h1 := (List.takeWhile_sublist
        Char.isDigit (l := cs.take most)).length_le
      rw [hds] at h1
      simp only [List.length_cons, List.length_take] at h1
      omega
    simp only [Option.some.injEq, Prod.mk.injEq] at h
    rw [← h.2, List.length_drop]
    omega

/-- A number is read back from its own digits. -/
theorem digitsValue_toDigits (n : Nat) :
    digitsValue (Nat.toDigits 10 n) = n :=
  Nat.ofDigitChars_toDigits (by decide) (by decide)

/-! ### Plain decimal numbers -/

/-- A number as its sign, the digits before the point and the digits
after it. -/
structure Numeral where
  negative : Bool
  whole : List Char
  fraction : List Char
deriving DecidableEq

namespace Numeral

/-- The numeral without its sign: digits, or digits on both sides of a
point. -/
def ofUnsigned? (negative : Bool) (cs : List Char) : Option Numeral :=
  match cs.takeWhile Char.isDigit, cs.dropWhile Char.isDigit with
  | [], _ => none
  | whole, [] => some ⟨negative, whole, []⟩
  | whole, '.' :: fraction =>
      if !fraction.isEmpty && fraction.all Char.isDigit then
        some ⟨negative, whole, fraction⟩
      else none
  | _, _ => none

/-- The parts of a numeral. -/
def parse? (s : String) : Option Numeral :=
  match s.toList with
  | '+' :: cs => ofUnsigned? false cs
  | '-' :: cs => ofUnsigned? true cs
  | cs => ofUnsigned? false cs

/-- Whether a text is a numeral. -/
def isNumeral (s : String) : Bool := (parse? s).isSome

/-- The number of digits. -/
def precision (n : Numeral) : Nat := n.whole.length + n.fraction.length

/-- The number of digits after the point. -/
def scale (n : Numeral) : Nat := n.fraction.length

/-- The integer that a numeral without a point stands for. -/
def toInt? (n : Numeral) : Option Int :=
  if n.fraction.isEmpty then
    let size : Int := digitsValue n.whole
    some (if n.negative then -size else size)
  else none

/-- The 64-bit integer that a numeral without a point stands for, if
it is in range. -/
def toInt64? (n : Numeral) : Option Int64 := do
  let i ← n.toInt?
  if Int64.minValue.toInt ≤ i ∧ i ≤ Int64.maxValue.toInt then
    some (Int64.ofInt i)
  else none

/-- A numeral has a digit before the point. -/
theorem parse?_whole_ne_nil {s : String} {n : Numeral}
    (h : parse? s = some n) : n.whole ≠ [] := by
  have unsigned : ∀ {b : Bool} {cs : List Char},
      ofUnsigned? b cs = some n → n.whole ≠ [] := by
    intro b cs hcs
    unfold ofUnsigned? at hcs
    split at hcs
    · simp at hcs
    · simp only [Option.some.injEq] at hcs
      subst hcs
      assumption
    · split at hcs
      · simp only [Option.some.injEq] at hcs
        subst hcs
        assumption
      · simp at hcs
    · simp at hcs
  unfold parse? at h
  split at h <;> exact unsigned h

end Numeral

end SchemaEvolution.Text

import SchemaEvolution.Proofs.Sql.Skeleton

/-!
# `SchemaEvolution.Proofs.Sql.Words`: a text of SQL as its words

Outside of literals, letters and digits that stand side by side make one
word, and so do the signs of a comparison. A point belongs to the word
around it, so that a field is one word with its table. Blanks only keep
words apart. Reserved words are known in upper and in lower case.

Two texts are read one after the other where they are put together, as
long as the seam is one: a blank, or a mark that is a word by itself.

* `words?_append`: texts with a seam between them.
* `HasWords.between`, `HasWords.behind`, `HasWords.before`: texts put
  together with constants.
-/

set_option autoImplicit false

namespace SchemaEvolution.Sql

open SchemaEvolution.Text

/-! ### Runs of characters -/

/-- What a character can be part of. -/
inductive CharClass where
  | word
  | sign
  | blank
  | mark
deriving DecidableEq

/-- What a character is part of: a word, a comparison or a gap. Other
characters stand by themselves. -/
def charClass (c : Char) : CharClass :=
  if c.isAlphanum || c = '_' || c = '.' then .word
  else if c = '<' || c = '>' || c = '=' then .sign
  else if isWhiteSpace c then .blank
  else .mark

/-- Characters of one class that stand side by side, or a literal. -/
inductive Run where
  | chars (kind : CharClass) (cs : List Char)
  | literal (s : String)
deriving DecidableEq

/-- Puts a character in front of runs. -/
def addChar (c : Char) : List Run → List Run
  | .chars kind cs :: rs =>
      if charClass c = kind ∧ kind ≠ .mark then .chars kind (c :: cs) :: rs
      else .chars (charClass c) [c] :: .chars kind cs :: rs
  | rs => .chars (charClass c) [c] :: rs

/-- The runs of tokens. -/
def runs : List Token → List Run
  | [] => []
  | .code c :: ts => addChar c (runs ts)
  | .literal s :: ts => .literal s :: runs ts

/-! ### Words -/

/-- A word of a condition. -/
inductive Word where
  | and
  | or
  | not
  | is
  | null
  | isIn
  | escape
  | comparison (op : Comparison)
  | opening
  | closing
  | comma
  /-- A field or a number. -/
  | operand (s : String)
  | literal (s : String)
  | unknown
deriving DecidableEq

/-- The words that mean something by themselves, in upper case. -/
def fixedWords : List (List Char × Word) :=
  [ ("AND".toList, .and), ("OR".toList, .or), ("NOT".toList, .not),
    ("IS".toList, .is), ("NULL".toList, .null), ("IN".toList, .isIn),
    ("LIKE".toList, .comparison .like), ("ESCAPE".toList, .escape),
    ("=".toList, .comparison .eq), ("<>".toList, .comparison .notEq),
    ("<".toList, .comparison .lt), ("<=".toList, .comparison .ltEq),
    (">".toList, .comparison .gt), (">=".toList, .comparison .gtEq),
    ("(".toList, .opening), (")".toList, .closing),
    (",".toList, .comma) ]

/-- The word of this spelling that means something by itself, if there is
one. -/
def fixedWord? (cs : List Char) : Option Word :=
  fixedWords.lookup (cs.map Char.toUpper)

/-- The word that a run is. A gap is none. -/
def Word.ofRun? : Run → Option Word
  | .literal s => some (.literal s)
  | .chars .blank _ => none
  | .chars .word cs =>
      some ((fixedWord? cs).getD (.operand (String.ofList cs)))
  | .chars _ cs => some ((fixedWord? cs).getD .unknown)

/-- The words of a text. -/
def words? (cs : List Char) : Option (List Word) :=
  (lex .doubled .outside cs).map fun ts => (runs ts).filterMap Word.ofRun?

/-! ### Texts behind one another -/

/-- The first run is of the class of the first character. -/
theorem addChar_eq_cons (c : Char) (rs : List Run) :
    ∃ cs rest, addChar c rs = .chars (charClass c) cs :: rest := by
  unfold addChar
  split
  · split
    · next h => exact ⟨_, _, by rw [h.1]⟩
    · exact ⟨_, _, rfl⟩
  · exact ⟨_, _, rfl⟩

/-- A character does not join the runs of what it is kept apart from. -/
theorem addChar_runs {a : Char} {us : List Token}
    (h : ∀ b, .code b ∈ us.head? → charClass a = charClass b →
      charClass a = .mark) :
    addChar a (runs us) = .chars (charClass a) [a] :: runs us := by
  match us with
  | [] => rfl
  | .literal s :: us => rfl
  | .code b :: us =>
      obtain ⟨cs, rest, hruns⟩ := addChar_eq_cons b (runs us)
      rw [runs, hruns, addChar, if_neg]
      rintro ⟨hclass, hmark⟩
      exact hmark (hclass ▸ h b rfl hclass)

/-- A character joins the first of some runs, whatever follows. -/
theorem addChar_append {c : Char} {rs ss : List Run} (h : rs ≠ []) :
    addChar c (rs ++ ss) = addChar c rs ++ ss := by
  obtain ⟨r, rs, rfl⟩ := List.exists_cons_of_ne_nil h
  cases r with
  | literal s => rfl
  | chars kind cs =>
      rw [List.cons_append, addChar, addChar]
      split <;> rfl

/-- Every token is in some run. -/
theorem runs_ne_nil {ts : List Token} (h : ts ≠ []) : runs ts ≠ [] := by
  obtain ⟨t, ts, rfl⟩ := List.exists_cons_of_ne_nil h
  cases t with
  | literal s => exact List.cons_ne_nil _ _
  | code c =>
      obtain ⟨cs, rest, hruns⟩ := addChar_eq_cons c (runs ts)
      rw [runs, hruns]
      exact List.cons_ne_nil _ _

/-- No run crosses a seam. -/
theorem runs_append {ts us : List Token}
    (h : ∀ a b, .code a ∈ ts.getLast? → .code b ∈ us.head? →
      charClass a = charClass b → charClass a = .mark) :
    runs (ts ++ us) = runs ts ++ runs us := by
  induction ts with
  | nil => rfl
  | cons t rest ih =>
      cases rest with
      | nil =>
          -- The last token is the one that meets what follows.
          cases t with
          | literal s => rfl
          | code a => exact addChar_runs fun b => h a b rfl
      | cons u rest =>
          have hrest := ih fun a b ha => h a b (by simpa using ha)
          cases t with
          | literal s =>
              show .literal s :: runs (u :: rest ++ us) = _
              rw [hrest]
              rfl
          | code c =>
              show addChar c (runs (u :: rest ++ us)) = _
              rw [hrest, addChar_append (runs_ne_nil (by simp))]
              rfl

/-- What two texts meet at is a seam: no quote follows, and no character
belongs to that before it. -/
structure Seam (cs rest : List Char) : Prop where
  quote : ∀ b ∈ rest.head?, b ≠ quote
  apart : ∀ a ∈ cs.getLast?, ∀ b ∈ rest.head?,
    charClass a = charClass b → charClass a = .mark

/-- Texts with a seam between them are read one after the other. -/
theorem words?_append {cs rest : List Char} {ws vs : List Word}
    (hcs : words? cs = some ws) (hrest : words? rest = some vs)
    (h : Seam cs rest) : words? (cs ++ rest) = some (ws ++ vs) := by
  obtain ⟨ts, hts, rfl⟩ := Option.map_eq_some_iff.1 hcs
  obtain ⟨us, hus, rfl⟩ := Option.map_eq_some_iff.1 hrest
  have hruns : runs (ts ++ us) = runs ts ++ runs us := by
    refine runs_append fun a b ha hb => h.apart a ?_ b ?_
    · obtain ⟨front, rfl⟩ := List.getLast?_eq_some_iff.1 ha
      simp [← text_of_lex hts, Token.text]
    · obtain ⟨tail, rfl⟩ := List.head?_eq_some_iff.1 hb
      simp [← text_of_lex hus, Token.text]
  rw [words?, lex_append hts h.quote, hus]
  simp [hruns]

/-- Characters of one class that is not that of marks make one run. -/
theorem runs_of_charClass {kind : CharClass} {cs : List Char}
    (hkind : kind ≠ .mark) (hne : cs ≠ [])
    (h : ∀ c ∈ cs, charClass c = kind) :
    runs (cs.map .code) = [.chars kind cs] := by
  induction cs with
  | nil => exact absurd rfl hne
  | cons c cs ih =>
      obtain ⟨hc, hcs⟩ := List.forall_mem_cons.1 h
      cases cs with
      | nil => simp [runs, addChar, hc]
      | cons d ds =>
          have hrest := ih (List.cons_ne_nil d ds) hcs
          rw [List.map_cons, runs, hrest, addChar, if_pos ⟨hc, hkind⟩]

/-- Characters of words make one word. -/
theorem words?_of_charClass {cs : List Char} (hne : cs ≠ [])
    (h : ∀ c ∈ cs, charClass c = .word) :
    words? cs = some [(fixedWord? cs).getD (.operand (String.ofList cs))] := by
  have hquote : quote ∉ cs := fun hmem => by
    have := h _ hmem
    revert this
    decide
  rw [words?, lex_of_quoteFree hquote, Option.map_some,
    runs_of_charClass (by decide) hne h]
  rfl

/-! ### Texts and constants -/

/-- Whether whatever stands beside the character ends there. -/
def isSeam (c : Char) : Bool :=
  charClass c = .blank || (charClass c = .mark && c ≠ quote)

/-- Whether a text by itself may begin with the character. -/
def isFirst (c : Char) : Bool := charClass c ≠ .blank && c ≠ quote

/-- Whether a text by itself may end with the character. -/
def isLast (c : Char) : Bool := charClass c ≠ .blank

/-- Whether a text begins with a character of some kind. -/
def begins (p : Char → Bool) (s : String) : Bool := s.toList.head?.any p

/-- Whether a text ends with a character of some kind. -/
def ends (p : Char → Bool) (s : String) : Bool := s.toList.getLast?.any p

section Ends

variable {p : Char → Bool} {s t : String}

/-- What a text begins with does not change with what follows it. -/
theorem begins_append (h : begins p s = true) :
    begins p (s ++ t) = true := by
  obtain ⟨c, hc, hp⟩ := (Option.any_eq_true _ _).1 h
  simp [begins, List.head?_append, hc, hp]

/-- Nor does what it ends with, with what stands before it. -/
theorem ends_append (h : ends p t = true) : ends p (s ++ t) = true := by
  obtain ⟨c, hc, hp⟩ := (Option.any_eq_true _ _).1 h
  simp [ends, List.getLast?_append, hc, hp]

/-- A text by itself ends where a seam follows. -/
theorem Seam.after_last (hs : ends isLast s = true)
    (ht : begins isSeam t = true) : Seam s.toList t.toList := by
  obtain ⟨a, ha, hlast⟩ := (Option.any_eq_true _ _).1 hs
  obtain ⟨b, hb, hseam⟩ := (Option.any_eq_true _ _).1 ht
  constructor
  · rw [hb]
    rintro _ ⟨⟩ rfl
    exact absurd hseam (by decide)
  · rw [ha, hb]
    -- The first text ends with no blank, so what it shares a class with
    -- is a mark.
    rintro _ ⟨⟩ _ ⟨⟩ hclass
    simp only [isLast, isSeam, decide_eq_true_eq, Bool.or_eq_true,
      Bool.and_eq_true] at hlast hseam
    grind

/-- A text by itself begins where a seam was. -/
theorem Seam.before_first (hs : ends isSeam s = true)
    (ht : begins isFirst t = true) : Seam s.toList t.toList := by
  obtain ⟨a, ha, hseam⟩ := (Option.any_eq_true _ _).1 hs
  obtain ⟨b, hb, hfirst⟩ := (Option.any_eq_true _ _).1 ht
  simp only [isFirst, isSeam, decide_eq_true_eq, Bool.or_eq_true,
    Bool.and_eq_true] at hfirst hseam
  constructor
  · rw [hb]
    rintro _ ⟨⟩
    exact hfirst.2
  · rw [ha, hb]
    rintro _ ⟨⟩ _ ⟨⟩ hclass
    grind

end Ends

/-- A text by itself and its words: there is no gap at its ends, and it
does not begin with a literal. -/
structure HasWords (s : String) (ws : List Word) : Prop where
  words : words? s.toList = some ws
  first : begins isFirst s = true
  last : ends isLast s = true

/-- Whether a constant can stand before a text. -/
def isLead (s : String) (ws : List Word) : Bool :=
  words? s.toList = some ws && begins isFirst s && ends isSeam s

/-- Whether a constant can stand behind a text. -/
def isTail (s : String) (ws : List Word) : Bool :=
  words? s.toList = some ws && begins isSeam s && ends isLast s

/-- Whether a constant can stand between texts. -/
def isSeparator (s : String) (ws : List Word) : Bool :=
  words? s.toList = some ws && begins isSeam s && ends isSeam s

namespace HasWords

variable {s t c : String} {ws us vs : List Word}

/-- A text behind a constant. -/
theorem behind (ht : HasWords t vs) (hc : isLead c us = true) :
    HasWords (c ++ t) (us ++ vs) := by
  simp only [isLead, Bool.and_eq_true, decide_eq_true_eq] at hc
  obtain ⟨⟨hwords, hfirst⟩, hlast⟩ := hc
  refine ⟨?_, begins_append hfirst, ends_append ht.last⟩
  rw [String.toList_append]
  exact words?_append hwords ht.words (.before_first hlast ht.first)

/-- A text before a constant. -/
theorem before (hs : HasWords s ws) (hc : isTail c us = true) :
    HasWords (s ++ c) (ws ++ us) := by
  simp only [isTail, Bool.and_eq_true, decide_eq_true_eq] at hc
  obtain ⟨⟨hwords, hfirst⟩, hlast⟩ := hc
  refine ⟨?_, begins_append hs.first, ends_append hlast⟩
  rw [String.toList_append]
  exact words?_append hs.words hwords (.after_last hs.last hfirst)

/-- A constant between two texts. -/
theorem between (hs : HasWords s ws) (ht : HasWords t vs)
    (hc : isSeparator c us = true) :
    HasWords (s ++ c ++ t) (ws ++ us ++ vs) := by
  simp only [isSeparator, Bool.and_eq_true, decide_eq_true_eq] at hc
  obtain ⟨⟨hwords, hfirst⟩, hlast⟩ := hc
  have hrest : words? (c ++ t).toList = some (us ++ vs) := by
    rw [String.toList_append]
    exact words?_append hwords ht.words (.before_first hlast ht.first)
  rw [String.append_assoc, List.append_assoc]
  refine ⟨?_, begins_append hs.first, ends_append (ends_append ht.last)⟩
  rw [String.toList_append]
  exact words?_append hs.words hrest
    (.after_last hs.last (begins_append hfirst))

/-- Texts with a constant between them. -/
theorem intercalate {ι : Type} {parts : List ι} {text : ι → String}
    {wordsOf : ι → List Word} (hs : HasWords s ws)
    (hparts : ∀ p ∈ parts, HasWords (text p) (wordsOf p))
    (hc : isSeparator c us = true) :
    HasWords (c.intercalate (s :: parts.map text))
      (ws ++ parts.flatMap fun p => us ++ wordsOf p) := by
  induction parts generalizing s ws with
  | nil => simpa using hs
  | cons p rest ih =>
      obtain ⟨hp, hrest⟩ := List.forall_mem_cons.1 hparts
      have hboth := hs.between (ih hp hrest) hc
      simpa [String.intercalate_cons_cons] using hboth

/-- A word that means nothing by itself is an operand. -/
theorem operand (hne : s.toList ≠ [])
    (hclass : ∀ c ∈ s.toList, charClass c = .word)
    (hfixed : fixedWord? s.toList = none) : HasWords s [.operand s] := by
  have hword : ∀ c ∈ s.toList, isFirst c = true ∧ isLast c = true := by
    intro c hc
    have hquote : c ≠ quote := by
      rintro rfl
      exact absurd (hclass _ hc) (by decide)
    simp [isFirst, isLast, hclass c hc, hquote]
  refine ⟨?_, ?_, ?_⟩
  · rw [words?_of_charClass hne hclass, hfixed]
    simp
  · exact (Option.any_eq_true _ _).2 ⟨_, List.head?_eq_some_head hne,
      (hword _ (List.head_mem hne)).1⟩
  · exact (Option.any_eq_true _ _).2 ⟨_, List.getLast?_eq_some_getLast hne,
      (hword _ (List.getLast_mem hne)).2⟩

end HasWords

end SchemaEvolution.Sql

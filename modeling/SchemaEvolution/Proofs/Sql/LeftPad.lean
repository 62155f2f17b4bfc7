import SchemaEvolution.Proofs.Sql.StringText

/-!
# `SchemaEvolution.Proofs.Sql.LeftPad`: how far NuoDB pads a string

NuoDB has no function that pads a string in front. The padding is cut, in
SQL, from a constant of blanks in which the blanks are replaced by the
character, and a `CASE` cuts the string itself where nothing is missing. So
there is never more padding than there are blanks in the constant, and a
string that lacks more stays shorter than it was to be. `LPAD` of standard SQL
has no such bound.

The three arguments go into the text as they are written, one of them four
times, and beside operators of the template. They stay whole there whatever
they are, since a number is no chain and a string is no sum.

* `NuoDb.hasLexemes_leftPad`: the lexemes of the text, whatever the arguments
  are.
* `NuoDb.operand_leftPad`: what the text computes.
* `NuoDb.left_pad_reaches_iff`: when that is a string of the length that was
  asked for.
-/

set_option autoImplicit false

namespace SchemaEvolution

open SchemaEvolution.Sql
open SchemaEvolution.Sql.Strings
open SchemaEvolution.Sql.Scalar

namespace NuoDb

/-! ### How the text is read -/

/-- The lexemes of the number of characters that a string lacks. -/
def missingLexemes (v n : List Lexeme) : List Lexeme :=
  n ++ .operator .minus ::
    callLexemes "LENGTH"
      (callLexemes "CAST" (v ++ [.word "AS", .word "STRING"]))

/-- The lexemes of the arguments that the padding is cut from. -/
def paddingLexemes (v n c : List Lexeme) : List Lexeme :=
  callLexemes "REPLACE"
      (.literal padding :: .mark ',' :: .literal " " :: .mark ',' :: c) ++
    .mark ',' :: .word "1" :: .mark ',' :: missingLexemes v n

/-- The lexemes of a padded string. -/
def paddedLexemes (v n c : List Lexeme) : List Lexeme :=
  callLexemes "SUBSTRING" (paddingLexemes v n c) ++
    .mark '|' :: .mark '|' :: v

/-- The lexemes of a string that is cut. -/
def cutLexemes (v n : List Lexeme) : List Lexeme :=
  callLexemes "SUBSTRING" (v ++ .mark ',' :: .word "1" :: .mark ',' :: n)

/-- The lexemes of a string brought to a length. -/
def leftPadLexemes (v n c : List Lexeme) : List Lexeme :=
  .opening .cases :: (.word "WHEN" :: (missingLexemes v n ++
    (Comparison.gt.symbol.toList.map .mark ++ ([.word "0"] ++
      .word "THEN" :: (paddedLexemes v n c ++
        .word "ELSE" :: cutLexemes v n)))) ++ [.closing .cases])

/-- The lexemes of the constants of the text. -/
def leftPadBehindLexemes : List (List Lexeme) :=
  let close := Lexeme.closing .round
  let minus : List Lexeme := [.operator .minus, .word "LENGTH",
    .opening .round, .word "CAST", .opening .round]
  let string : List Lexeme := [.word "AS", .word "STRING", close, close]
  [minus,
    string ++ [.mark '>', .word "0", .word "THEN", .word "SUBSTRING",
      .opening .round, .word "REPLACE", .opening .round, .literal padding,
      .mark ',', .literal " ", .mark ','],
    [close, .mark ',', .word "1", .mark ','],
    minus,
    string ++ [close, .mark '|', .mark '|'],
    [.word "ELSE", .word "SUBSTRING", .opening .round],
    [.mark ',', .word "1", .mark ','],
    [close, .closing .cases]]

theorem templateLexemes?_leftPadBehind :
    templateLexemes? leftPadBehind = some leftPadBehindLexemes := by
  decide +kernel

/-- The text has the lexemes of its constants, and those of its arguments
in between. -/
theorem hasLexemes_leftPad {q : QuoteRule}
    {value length character : String} {v n c : List Lexeme}
    (hv : HasLexemes q value v) (hn : HasLexemes q length n)
    (hc : HasLexemes q character c) :
    HasLexemes q (leftPad value length character)
      (leftPadLexemes v n c) := by
  have hfront : Leads q "CASE WHEN " [.opening .cases, .word "WHEN"] :=
    Leads.of_lead? (by decide)
  have hholes : List.Forall₂ (HasLexemes q)
      [length, value, character, length, value, value, value, length]
      [n, v, c, n, v, v, v, n] := by
    simp only [List.forall₂_cons, hv, hn, hc, and_self, List.Forall₂.nil]
  have hall := hasLexemes_fill hfront templateLexemes?_leftPadBehind hholes
    rfl (List.cons_ne_nil _ _)
  have hgt : Comparison.gt.symbol.toList = ['>'] := by decide
  rw [leftPad_eq_fill]
  -- What is left is where the constants of the template are cut apart.
  simpa only [weaveLexemes, leftPadBehindLexemes, leftPadLexemes,
    paddedLexemes, paddingLexemes, missingLexemes, cutLexemes, callLexemes,
    hgt, List.map_cons, List.map_nil, List.cons_append, List.nil_append,
    List.append_assoc] using hall

/-! ### What the text computes -/

section Values

variable {row : List Lexeme → Option Datum} {v n c : List Lexeme}
  {s : String} {count : Nat} {fill : Char}

/-- The number of characters that are missing, which is negative if there
are too many. -/
theorem evaluates_missing (hv : Evaluates row v (.text s))
    (hn : Evaluates row n (.number count)) :
    Evaluates row (missingLexemes v n) (.number (count - s.length)) := by
  have htyped : HasArguments row (v ++ [.word "AS", .word "STRING"])
      [.typed (.text s) "STRING"] :=
    .typed hv (by decide)
  have hcast : OneOperand row _ (.text s) :=
    .call (w := "CAST") (f := .cast) (by decide) (by decide) htyped rfl
  have hlength : OneOperand row _ (.number s.length) :=
    .call (w := "LENGTH") (f := .length) (by decide) (by decide)
      (.value hcast.evaluates) rfl
  exact hn.operation rfl hlength rfl

/-- What a substring is taken of, from the first character. -/
theorem hasArguments_first {d : Datum} {i : Int} {ls us : List Lexeme}
    (hd : Evaluates row ls d) (hi : Evaluates row us (.number i)) :
    HasArguments row (ls ++ .mark ',' :: .word "1" :: .mark ',' :: us)
      [.value d, .value (.number 1), .value (.number i)] := by
  have hone : OneOperand row [.word "1"] (.number 1) :=
    .number (by decide) (by decide)
  exact .cons hd (.cons hone.evaluates (.value hi))

/-- The padding is cut from as many characters as the constant has
blanks. -/
theorem hasArguments_padding (hv : Evaluates row v (.text s))
    (hn : Evaluates row n (.number count))
    (hc : Evaluates row c (.text (.singleton fill))) :
    HasArguments row (paddingLexemes v n c)
      [.value (.text (String.ofList (.replicate padding.length fill))),
        .value (.number 1), .value (.number (count - s.length))] := by
  -- The padding is blanks, each of which is replaced by the character to
  -- fill with.
  have hargs : HasArguments row
      (.literal padding :: .mark ',' :: .literal " " :: .mark ',' :: c)
      [.value (.text padding), .value (.text " "),
        .value (.text (.singleton fill))] :=
    .cons (OneOperand.literal padding).evaluates
      (.cons (OneOperand.literal " ").evaluates (.value hc))
  have hresult : StringFunction.replace.result?
      [.value (.text padding), .value (.text " "),
        .value (.text (.singleton fill))] =
      some (.text (String.ofList (.replicate padding.length fill))) := by
    have hblanks : padding.toList = .replicate padding.length ' ' := by
      decide
    have hblank : " ".toList = [' '] ∧ " " ≠ "" := by decide
    simp [StringFunction.result?, hblanks, hblank.1, hblank.2,
      replaceAll_replicate]
  have hreplace : OneOperand row _ _ :=
    .call (w := "REPLACE") (by decide) (by decide) hargs hresult
  exact hasArguments_first hreplace.evaluates (evaluates_missing hv hn)

/-- What is left of a string of which the first characters are taken. -/
theorem operand_first {ls : List Lexeme} {t : String} {i : Int}
    (h : HasArguments row ls
      [.value (.text t), .value (.number 1), .value (.number i)])
    (hi : 0 ≤ i) :
    OneOperand row (callLexemes "SUBSTRING" ls)
      (.text (String.ofList (t.toList.take i.toNat))) :=
  .call (w := "SUBSTRING") (f := .substring) (by decide) (by decide) h
    (by simp [StringFunction.result?, hi])

/-- A string with too few characters is padded, as far as the padding
goes. -/
theorem evaluates_padded (hv : Evaluates row v (.text s))
    (hn : Evaluates row n (.number count))
    (hc : Evaluates row c (.text (.singleton fill)))
    (h : s.length < count) :
    Evaluates row (paddedLexemes v n c)
      (.text (leftPadded s (min count (s.length + padding.length)) fill)) := by
  have hfirst := operand_first (hasArguments_padding hv hn hc) (by omega)
  have hpadded := hfirst.evaluates.concat hv
  have hvalue : leftPadded s (min count (s.length + padding.length)) fill =
      String.ofList ((String.ofList
        (.replicate padding.length fill)).toList.take
          (count - s.length : Int).toNat) ++ s := by
    rw [leftPadded, if_pos (by omega), String.toList_ofList,
      List.take_replicate]
    congr 3
    omega
  rw [hvalue]
  exact hpadded

/-- A string with enough characters is cut. -/
theorem evaluates_cut (hv : Evaluates row v (.text s))
    (hn : Evaluates row n (.number count)) (h : count ≤ s.length) :
    Evaluates row (cutLexemes v n)
      (.text (leftPadded s (min count (s.length + padding.length)) fill)) := by
  have hfirst := operand_first (hasArguments_first hv hn) (by omega)
  have hvalue : leftPadded s (min count (s.length + padding.length)) fill =
      String.ofList (s.toList.take (count : Int).toNat) := by
    rw [Nat.min_eq_left (by omega), leftPadded_of_le h, Int.toNat_natCast]
  rw [hvalue]
  exact hfirst.evaluates

/-- A string is brought to its length, as far as the padding goes. -/
theorem operand_leftPad (hv : Evaluates row v (.text s))
    (hn : Evaluates row n (.number count))
    (hc : Evaluates row c (.text (.singleton fill))) :
    OneOperand row (leftPadLexemes v n c)
      (.text (leftPadded s (min count (s.length + padding.length)) fill)) := by
  have hzero : OneOperand row [.word "0"] (.number 0) :=
    .number (by decide) (by decide)
  have hholds : holdsDatum? .gt (.number (count - s.length)) (.number 0) =
      some (decide (s.length < count)) :=
    congrArg some (decide_eq_decide.2 (by omega))
  have hyes : Uncut row (paddedLexemes v n c) :=
    .concat (.call (by decide) (hasArguments_padding hv hn hc)) hv.uncut
  have hno : Uncut row (cutLexemes v n) :=
    .call (by decide) (hasArguments_first hv hn)
  refine .choice (by decide) (evaluates_missing hv hn) hzero.evaluates hholds
    hyes hno ?_
  by_cases h : s.length < count
  · simpa [h] using evaluates_padded hv hn hc h
  · simpa [h] using evaluates_cut hv hn (Nat.le_of_not_lt h)

end Values

end NuoDb

/-! ### The function of standard SQL -/

namespace Ansi

/-- The lexemes of a call of `LPAD`. -/
def leftPadLexemes (v n c : List Lexeme) : List Lexeme :=
  callLexemes "LPAD" (v ++ .mark ',' :: (n ++ .mark ',' :: c))

theorem hasLexemes_leftPad {q : QuoteRule}
    {value length character : String} {v n c : List Lexeme}
    (hv : HasLexemes q value v) (hn : HasLexemes q length n)
    (hc : HasLexemes q character c) :
    HasLexemes q (callText "LPAD" [value, length, character])
      (leftPadLexemes v n c) := by
  -- The template of the call is its name, the commas between its arguments
  -- and the bracket.
  have hfront : Leads q "LPAD(" [.word "LPAD", .opening .round] :=
    Leads.of_lead? (by decide)
  have hbehind : templateLexemes? [", ", ", ", ")"] =
      some [[.mark ','], [.mark ','], [.closing .round]] := by
    decide
  have hholes : List.Forall₂ (HasLexemes q) [value, length, character]
      [v, n, c] := by
    simp only [List.forall₂_cons, hv, hn, hc, and_self, List.Forall₂.nil]
  have hall := hasLexemes_fill hfront hbehind hholes rfl
    (List.cons_ne_nil _ _)
  have htext : callText "LPAD" [value, length, character] =
      fill "LPAD(" [value, length, character] [", ", ", ", ")"] := by
    have hopening : "LPAD(" = "LPAD" ++ "(" := by decide
    rw [hopening]
    simp only [callText, fill, String.intercalate_cons_cons,
      String.intercalate_singleton, String.append_assoc]
  rw [htext]
  simpa only [weaveLexemes, leftPadLexemes, callLexemes, List.cons_append,
    List.nil_append, List.append_assoc] using hall

/-- `LPAD` pads to any length. -/
theorem operand_leftPad {row : List Lexeme → Option Datum}
    {v n c : List Lexeme} {s : String} {count : Nat} {fill : Char}
    (hv : Evaluates row v (.text s)) (hn : Evaluates row n (.number count))
    (hc : Evaluates row c (.text (.singleton fill))) :
    OneOperand row (leftPadLexemes v n c)
      (.text (leftPadded s count fill)) :=
  .call (w := "LPAD") (f := .leftPad) (by decide) (by decide)
    (.cons hv (.cons hn (.value hc)))
    (by simp [StringFunction.result?])

end Ansi

/-! ### What the dialects write -/

/-- The call that brings a string to a length. -/
def Expr.leftPad (value length character : Expr) : Expr :=
  .call .leftPad [value, length, character]

section Dialects

variable {row : List Lexeme → Option Datum} {value length character : Expr}
  {s : String} {count : Nat} {fill : Char}

/-- The call is written with its arguments in its template, and these have
the values that they have by themselves. -/
theorem Dialect.exists_leftPad {d : Dialect} {q : QuoteRule}
    {template : List String → String}
    (htemplate : d.call d.name .leftPad = .ok template)
    (hvalue : value.datum? d q row = some (.text s))
    (hlength : length.datum? d q row = some (.number count))
    (hcharacter : character.datum? d q row =
      some (.text (.singleton fill))) :
    ∃ v n c vs ns cs,
      d.exprText (.leftPad value length character) =
        .ok (template [v, n, c]) ∧
      (HasLexemes q v vs ∧ HasLexemes q n ns ∧ HasLexemes q c cs) ∧
      Evaluates row vs (.text s) ∧ Evaluates row ns (.number count) ∧
      Evaluates row cs (.text (.singleton fill)) := by
  obtain ⟨v, vs, hv, hvs, hvalue⟩ := Expr.datum?_eq_some_iff.1 hvalue
  obtain ⟨n, ns, hn, hns, hlength⟩ := Expr.datum?_eq_some_iff.1 hlength
  obtain ⟨c, cs, hc, hcs, hcharacter⟩ := Expr.datum?_eq_some_iff.1 hcharacter
  have hcount : FunctionKind.leftPad.checkCount
      [value, length, character].length = .ok () := rfl
  refine ⟨v, n, c, vs, ns, cs, ?_, ⟨hvs, hns, hcs⟩, hvalue, hlength,
    hcharacter⟩
  rw [Expr.leftPad, Dialect.exprText, hcount, htemplate]
  simp only [Dialect.exprTexts, hv, hn, hc]
  rfl

/-- NuoDB pads as far as the padding goes. -/
theorem NuoDb.datum?_leftPad
    (hvalue : value.datum? .nuoDb .escaped row = some (.text s))
    (hlength : length.datum? .nuoDb .escaped row = some (.number count))
    (hcharacter : character.datum? .nuoDb .escaped row =
      some (.text (.singleton fill))) :
    (Expr.leftPad value length character).datum? .nuoDb .escaped row =
      some (.text
        (leftPadded s (min count (s.length + padding.length)) fill)) := by
  obtain ⟨v, n, c, vs, ns, cs, hcall, ⟨hvs, hns, hcs⟩, hv, hn, hc⟩ :=
    Dialect.exists_leftPad rfl hvalue hlength hcharacter
  exact Expr.datum?_eq_some_iff.2 ⟨_, _, hcall,
    hasLexemes_leftPad hvs hns hcs, (operand_leftPad hv hn hc).evaluates⟩

/-- Standard SQL pads to any length. -/
theorem Ansi.datum?_leftPad
    (hvalue : value.datum? .ansi .doubled row = some (.text s))
    (hlength : length.datum? .ansi .doubled row = some (.number count))
    (hcharacter : character.datum? .ansi .doubled row =
      some (.text (.singleton fill))) :
    (Expr.leftPad value length character).datum? .ansi .doubled row =
      some (.text (leftPadded s count fill)) := by
  obtain ⟨v, n, c, vs, ns, cs, hcall, ⟨hvs, hns, hcs⟩, hv, hn, hc⟩ :=
    Dialect.exists_leftPad rfl hvalue hlength hcharacter
  exact Expr.datum?_eq_some_iff.2 ⟨_, _, hcall,
    hasLexemes_leftPad hvs hns hcs, (operand_leftPad hv hn hc).evaluates⟩

/-- Whatever a string, a length and a character are written as, NuoDB's text
brings the string to that length: what is too long is cut, and what is too
short gets copies of the character in front. But there are no more of them
than there are blanks in the constant that they are made from, and so the
string has the length that was asked for, like that of standard SQL, exactly
if it does not lack more. -/
theorem NuoDb.left_pad_reaches_iff
    (hvalue : value.datum? .nuoDb .escaped row = some (.text s))
    (hlength : length.datum? .nuoDb .escaped row = some (.number count))
    (hcharacter : character.datum? .nuoDb .escaped row =
      some (.text (.singleton fill))) :
    (Expr.leftPad value length character).datum? .nuoDb .escaped row =
        some (.text (leftPadded s (min count (s.length + padding.length))
          fill)) ∧
      ((Expr.leftPad value length character).datum? .nuoDb .escaped row =
          some (.text (leftPadded s count fill)) ↔
        count ≤ s.length + padding.length) ∧
      ∀ row' : List Lexeme → Option Datum,
        value.datum? .ansi .doubled row' = some (.text s) →
        length.datum? .ansi .doubled row' = some (.number count) →
        character.datum? .ansi .doubled row' =
          some (.text (.singleton fill)) →
        (Expr.leftPad value length character).datum? .ansi .doubled row' =
          some (.text (leftPadded s count fill)) := by
  have hcall := NuoDb.datum?_leftPad hvalue hlength hcharacter
  refine ⟨hcall, ?_, fun row' => Ansi.datum?_leftPad⟩
  rw [hcall, Option.some_inj, Datum.text.injEq]
  constructor
  · intro h
    -- A string that was brought to a length has it.
    have hlengths := congrArg String.length h
    rw [length_leftPadded, length_leftPadded] at hlengths
    omega
  · intro h
    rw [Nat.min_eq_left h]

end Dialects

/-- The number of a ticket, brought to a length. -/
def ticketNumber (length : Int64) (character : String) : Expr :=
  .leftPad (.literal (.string "7")) (.literal (.integer length))
    (.literal (.string character))

/-- No name has a value. -/
def noRow : List Lexeme → Option Datum := fun _ => none

/-- Twenty characters can be put in front of one, also backslashes, which
NuoDB writes in their own way. -/
theorem NuoDb.ticketNumber_reaches :
    (Expr.literal (.string "7")).datum? .nuoDb .escaped noRow =
      some (.text "7") ∧
    (Expr.literal (.integer 21)).datum? .nuoDb .escaped noRow =
      some (.number (21 : Nat)) ∧
    (Expr.literal (.string "\\")).datum? .nuoDb .escaped noRow =
      some (.text (.singleton '\\')) ∧
    (ticketNumber 21 "\\").datum? .nuoDb .escaped noRow =
      some (.text (leftPadded "7" 21 '\\')) ∧
    (ticketNumber 21 "\\").datum? .ansi .doubled noRow =
      some (.text (leftPadded "7" 21 '\\')) := by
  have hvalue : (Expr.literal (.string "7")).datum? .nuoDb .escaped noRow =
      some (.text "7") := Expr.datum?_nuoDb_string "7"
  have hlength : (Expr.literal (.integer 21)).datum? .nuoDb .escaped noRow =
      some (.number (21 : Nat)) := Expr.datum?_integer rfl
  have hcharacter : (Expr.literal (.string "\\")).datum? .nuoDb .escaped
      noRow = some (.text (.singleton '\\')) :=
    Expr.datum?_nuoDb_string "\\"
  obtain ⟨-, hreaches, hansi⟩ :=
    NuoDb.left_pad_reaches_iff hvalue hlength hcharacter
  exact ⟨hvalue, hlength, hcharacter, hreaches.2 (by decide),
    hansi noRow (Expr.datum?_ansi_string "7") (Expr.datum?_integer rfl)
      (Expr.datum?_ansi_string "\\")⟩

/-- Twenty-four are too many: the number of the ticket has 21 characters
instead of 25. -/
theorem NuoDb.ticketNumber_runs_short :
    (Expr.literal (.string "7")).datum? .nuoDb .escaped noRow =
      some (.text "7") ∧
    (Expr.literal (.integer 25)).datum? .nuoDb .escaped noRow =
      some (.number 25) ∧
    (Expr.literal (.string "0")).datum? .nuoDb .escaped noRow =
      some (.text (.singleton '0')) ∧
    (ticketNumber 25 "0").datum? .nuoDb .escaped noRow =
      some (.text "000000000000000000007") ∧
    (ticketNumber 25 "0").datum? .ansi .doubled noRow =
      some (.text "0000000000000000000000007") ∧
    leftPadded "7" 25 '0' = "0000000000000000000000007" := by
  -- The values of the arguments, as NuoDB writes these.
  have hvalue : (Expr.literal (.string "7")).datum? .nuoDb .escaped noRow =
      some (.text "7") := Expr.datum?_nuoDb_string "7"
  have hlength : (Expr.literal (.integer 25)).datum? .nuoDb .escaped noRow =
      some (.number (25 : Nat)) := Expr.datum?_integer rfl
  have hcharacter : (Expr.literal (.string "0")).datum? .nuoDb .escaped
      noRow = some (.text (.singleton '0')) := Expr.datum?_nuoDb_string "0"
  have hshort : leftPadded "7" (min 25 ("7".length + padding.length)) '0' =
      "000000000000000000007" := by decide
  have hlong : leftPadded "7" 25 '0' = "0000000000000000000000007" := by
    decide
  refine ⟨hvalue, hlength, hcharacter, ?_, ?_, hlong⟩
  · rw [← hshort]
    exact NuoDb.datum?_leftPad hvalue hlength hcharacter
  · rw [← hlong]
    exact Ansi.datum?_leftPad (Expr.datum?_ansi_string "7")
      (Expr.datum?_integer rfl) (Expr.datum?_ansi_string "0")

end SchemaEvolution

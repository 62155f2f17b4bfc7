import SchemaEvolution.Proofs.Sql.BooleanStructure
import SchemaEvolution.Proofs.Sql.Operands
import SchemaEvolution.Proofs.Sql.Writability

/-!
# `SchemaEvolution.Proofs.Sql.ClosedTexts`: what the dialects write closed

Fields, numbers, dates, types and the calls of standard SQL, each of which
is one operand by itself. Both dialects write most of this alike, and
nothing here hangs on the rule for quotes. Names have to be identifiers,
since a name may be anything and is not quoted; `CASE` and `END` are none,
because they are reserved.

* `hasLexemes_field`: a field with identifiers for names is one word.
* `exists_hasLexemes_numeral`: a numeral is its sign and one word.
* `whole_numeral`: a number is an operand, with or without a sign.
* `splices_unary`, `splices_binary`: templates with few arguments.
* `splices_ansi_call`: the templates of standard SQL are closed, all but
  the one that adds days.
-/

set_option autoImplicit false

namespace SchemaEvolution

open SchemaEvolution.Calendar
open SchemaEvolution.Sql
open SchemaEvolution.Text

/-! ### Names -/

/-- Whether a name is an identifier: letters, digits and underscores that
do not begin with a digit, and no word that is a bracket. -/
def isIdentifier (s : String) : Bool :=
  match s.toList with
  | [] => false
  | c :: cs =>
      !c.isDigit && (c :: cs).all (fun d => d.isAlphanum || d = '_') &&
        Lexeme.ofWord (c :: cs) = .word s

/-- Whether the names of a field are identifiers. -/
def FieldRef.hasIdentifiers (f : FieldRef) : Bool :=
  isIdentifier f.name && f.table.all fun t => isIdentifier t.qualifier

/-- Whether the names of a node, if it is a field, are identifiers. -/
def Expr.hasIdentifiers : Expr → Bool
  | .field f => f.hasIdentifiers
  | _ => true

/-- What an identifier consists of. -/
theorem word_of_isIdentifier {s : String} (h : isIdentifier s = true) :
    s.toList ≠ [] ∧ (∀ c ∈ s.toList, charClass c = .word) ∧
      Lexeme.ofWord s.toList = .word s := by
  unfold isIdentifier at h
  split at h
  · cases h
  · next c cs hs =>
      rw [hs]
      simp only [Bool.and_eq_true, Bool.or_eq_true, decide_eq_true_eq,
        List.all_eq_true] at h
      obtain ⟨⟨-, hall⟩, hword⟩ := h
      refine ⟨List.cons_ne_nil _ _, fun d hd => ?_, hword⟩
      rcases hall d hd with hd | rfl
      · exact charClass_of_isAlphanum hd
      · decide

/-- A word with a character that occurs in neither of the two is no
bracket. -/
theorem Sql.Lexeme.ofWord_eq_word {cs : List Char} {c : Char} (hc : c ∈ cs)
    (hcase : c.toUpper ∉ "CASE".toList) (hend : c.toUpper ∉ "END".toList) :
    Lexeme.ofWord cs = .word (String.ofList cs) := by
  have hmem := List.mem_map_of_mem (f := Char.toUpper) hc
  rw [Lexeme.ofWord, if_neg, if_neg]
  · intro heq
    exact hend (heq ▸ hmem)
  · intro heq
    exact hcase (heq ▸ hmem)

variable {q : QuoteRule}

/-- A field with identifiers for names is one word, since no bracket has a
point in it. -/
theorem hasLexemes_field {f : FieldRef} (h : f.hasIdentifiers = true) :
    HasLexemes q f.text [.word f.text] := by
  obtain ⟨table, name⟩ := f
  obtain ⟨hname, htable⟩ := Bool.and_eq_true_iff.1 h
  obtain ⟨hne, hclass, hword⟩ := word_of_isIdentifier hname
  cases table with
  | none => exact hasLexemes_word hne hclass hword
  | some t =>
      obtain ⟨-, htclass, -⟩ := word_of_isIdentifier htable
      have hpoint : (".".toList : List Char) = ['.'] := rfl
      have htext : (FieldRef.text ⟨some t, name⟩).toList =
          t.qualifier.toList ++ '.' :: name.toList := by
        simp [FieldRef.text, hpoint]
      refine hasLexemes_word (by simp [htext]) (fun c hc => ?_) ?_
      · rw [htext, List.mem_append, List.mem_cons] at hc
        rcases hc with hc | rfl | hc
        · exact htclass c hc
        · decide
        · exact hclass c hc
      · rw [Lexeme.ofWord_eq_word (c := '.') (by simp [htext]) (by decide)
          (by decide), String.ofList_toList]

/-! ### Numbers -/

/-- Digits and points that begin with a digit are one word, and a
number. -/
theorem hasLexemes_number {w : String}
    (hfirst : isNumber w = true)
    (hclass : ∀ c ∈ w.toList, c.isDigit = true ∨ c = '.') :
    HasLexemes q w [.word w] := by
  obtain ⟨d, hd, hdigit⟩ := (Option.any_eq_true _ _).1 hfirst
  obtain ⟨rest, hw⟩ := List.head?_eq_some_iff.1 hd
  refine hasLexemes_word (by simp [hw]) (fun c hc => ?_) ?_
  · rcases hclass c hc with hc | rfl
    · exact charClass_of_isAlphanum (by simp [Char.isAlphanum, hc])
    · decide
  · -- No bracket has a digit in it.
    have hnot : ∀ letters : List Char, letters.all (!·.isDigit) = true →
        d.toUpper ∉ letters := by
      intro letters hletters hmem
      rw [toUpper_of_isDigit hdigit] at hmem
      simpa [hdigit] using List.all_eq_true.1 hletters d hmem
    rw [Lexeme.ofWord_eq_word (c := d) (by simp [hw]) (hnot _ (by decide))
      (hnot _ (by decide)), String.ofList_toList]

/-- What a sign is read as. -/
inductive SignLexemes : Bool → List Lexeme → Prop where
  | none : SignLexemes false []
  | plus : SignLexemes false [.operator .plus]
  | minus : SignLexemes true [.operator .minus]

/-- The digits of a numeral are one word, and its sign stands before
it. -/
theorem exists_hasLexemes_numeral {n : Numeral} {s : String}
    (h : n.Spells s) :
    ∃ w : String, w.toList = n.unsigned ∧ isNumber w = true ∧
      ∃ sign, SignLexemes n.negative sign ∧
        HasLexemes q s (sign ++ [.word w]) := by
  obtain ⟨⟨hne, hdigits⟩, hfraction, sign, hsign, htext⟩ := h
  obtain ⟨w, hw⟩ : ∃ w : String, w.toList = n.unsigned :=
    ⟨String.ofList _, String.toList_ofList⟩
  rw [← hw] at htext
  have hnumber : isNumber w = true := by
    obtain ⟨d, ds, hwhole⟩ := List.exists_cons_of_ne_nil hne
    simp [isNumber, hw, Numeral.unsigned, hwhole,
      hdigits d (hwhole ▸ List.mem_cons_self)]
  -- The digits and the point of a numeral are characters of one word.
  have hword : HasLexemes q w [.word w] := by
    refine hasLexemes_number hnumber fun c hc => ?_
    rw [hw, Numeral.unsigned, List.mem_append] at hc
    rcases hc with hc | hc
    · exact .inl (hdigits c hc)
    · unfold Numeral.pointed at hc
      split at hc
      · cases hc
      · rcases List.mem_cons.1 hc with rfl | hc
        · exact .inr rfl
        · exact .inl (hfraction c hc)
  refine ⟨w, hw, hnumber, ?_⟩
  obtain ⟨negative, whole, fraction⟩ := n
  -- A sign, if there is one, is an operator of its own in front of that
  -- word.
  cases hsign with
  | none =>
      obtain rfl : s = w := String.toList_inj.1 htext
      exact ⟨_, .none, hword⟩
  | plus =>
      exact ⟨_, .plus, hasLexemes_signed (by decide) (by decide) hword
        htext⟩
  | minus =>
      exact ⟨_, .minus, hasLexemes_signed (by decide) (by decide) hword
        htext⟩

/-- A number is one operand. -/
theorem whole_numeral {s : String} (h : Numeral.IsSpelled s) :
    WholeText q s := by
  obtain ⟨⟨negative, _, _⟩, hn⟩ := Numeral.isSpelled_iff.1 h
  obtain ⟨w, -, hnumber, sign, hsign, hlexemes⟩ :=
    exists_hasLexemes_numeral (q := q) hn
  refine ⟨_, hlexemes, ?_⟩
  cases hsign with
  | none => exact .closed (.word w)
  | plus | minus => exact .signed rfl hnumber

/-- The digits of a number are one word. -/
theorem hasLexemes_nat (n : Nat) :
    isNumber (toString n) = true ∧
      HasLexemes q (toString n) [.word (toString n)] := by
  have hdigits : (toString n).toList = Nat.toDigits 10 n := by
    rw [Nat.toString_eq_ofList_toDigits, String.toList_ofList]
  have hnumber : isNumber (toString n) = true := by
    obtain ⟨d, ds, hcons⟩ := List.exists_cons_of_ne_nil
      (Nat.toDigits_ne_nil (n := n) (b := 10))
    have hd : d.isDigit = true :=
      isDigit_of_mem_toDigits (n := n) (by simp [hcons])
    simp [isNumber, hcons, hd]
  refine ⟨hnumber, hasLexemes_number hnumber fun c hc => .inl ?_⟩
  rw [hdigits] at hc
  exact isDigit_of_mem_toDigits hc

theorem enclosed_nat (n : Nat) : Enclosed q (toString n) :=
  ⟨_, (hasLexemes_nat n).2, .word _⟩

/-- What the lexemes of an integer are. -/
def integerLexemes : Int → List Lexeme
  | .ofNat n => [.word (toString n)]
  | .negSucc n => [.operator .minus, .word (toString (n + 1))]

/-- The sign of an integer is a lexeme of its own. -/
theorem hasLexemes_integer (i : Int) :
    HasLexemes q (toString i) (integerLexemes i) := by
  cases i with
  | ofNat n => exact (hasLexemes_nat n).2
  | negSucc n =>
      have htext : (toString (Int.negSucc n)).toList =
          '-' :: (toString (n + 1)).toList := by
        show ("-" ++ toString (n + 1)).toList = _
        simp
      exact hasLexemes_signed (by decide) (by decide)
        (hasLexemes_nat (n + 1)).2 htext

theorem whole_integerLexemes (i : Int) : Whole (integerLexemes i) := by
  cases i with
  | ofNat n => exact .closed (.word _)
  | negSucc n =>
      exact .signed rfl (hasLexemes_nat (q := .doubled) (n + 1)).1

/-! ### Dates and types -/

/-- A date is written with digits and signs. -/
theorem not_mem_dateText {d : Date} {c : Char} (hdigit : c.isDigit = false)
    (hsign : c ≠ '-' ∧ c ≠ '+') : c ∉ d.text.toList := by
  have hpadded : ∀ width n, c ∉ (padded width n).toList := by
    intro width n hc
    rw [isDigit_of_mem_padded hc] at hdigit
    cases hdigit
  have hyear : c ∉ (Date.yearText d.year).toList := by
    unfold Date.yearText
    split
    · exact hpadded _ _
    · split <;> simp [hpadded, hsign]
  simp [Date.text, hyear, hpadded, hsign]

/-- A date in quotes is a literal. -/
theorem hasLexemes_quotedDate (d : Date) :
    HasLexemes q ("'" ++ d.text ++ "'") [.literal d.text] :=
  hasLexemes_quoted (not_mem_dateText (by decide) (by decide))
    (not_mem_dateText (by decide) (by decide))

/-- A type may stand in a bracket. -/
theorem enclosed_columnType {type : DataType} {width scale : UInt32}
    {text : String} (h : Ansi.columnType type width scale = .ok text) :
    Enclosed q text := by
  cases type with
  | string =>
      cases h
      exact (splices_fill "VARCHAR(" [")"] [toString width.toNat] rfl
        (by decide) (by decide)
        (by simpa using enclosed_nat _)).closed.enclosed
  | decimal =>
      cases h
      exact (splices_fill "DECIMAL(" [",", ")"]
        [toString width.toNat, toString scale.toNat] rfl (by decide)
        (by decide)
        (by simpa using ⟨enclosed_nat _, enclosed_nat _⟩)).closed.enclosed
  | null => cases h
  | date | boolean | integer | bigInteger | blob | clob =>
      cases h
      exact (closed_constant (by decide)).enclosed

/-- A cast is closed. -/
theorem splices_cast {a type : String} (ha : Enclosed q a)
    (htype : Enclosed q type) :
    Splices q ("CAST(" ++ a ++ " AS " ++ type ++ ")") [a, type] :=
  splices_fill "CAST(" [" AS ", ")"] [a, type] rfl (by decide) (by decide)
    (by simp [ha, htype])

/-! ### Calls -/

section Calls

variable {args : List String}

/-- A call that is written as its name and its arguments is closed. -/
theorem splices_callText {function : String}
    (hfunction : isTemplate (function ++ "(") [")"] = true)
    (hfirst : startsOperand (function ++ "(") = true)
    (hargs : ∀ a ∈ args, Enclosed q a) :
    Splices q (callText function args) args := by
  have hcomma : lead? ", " = some [.mark ','] := by decide
  have henclosed : Enclosed q (", ".intercalate args) :=
    .intercalate hcomma (by decide) (by decide) hargs
  have hcall : Splices q (callText function args) [", ".intercalate args] :=
    splices_fill (function ++ "(") [")"] [", ".intercalate args] rfl
      hfunction hfirst (by simp [henclosed])
  exact ⟨hcall.closed, fun a ha =>
    (hcall.contains _ List.mem_cons_self).trans
      (contains_intercalate hcomma (by decide) (by decide) hargs a ha)⟩

/-- A template of one argument is closed when its constants are. The
argument may stand in it several times. -/
theorem splices_unary {f : String → String} (hcount : args.length = 1)
    (c b : String) (behind : List String)
    (hf : ∀ a, f a = fill c (a :: behind.map fun _ => a) (b :: behind))
    (hc : isTemplate c (b :: behind) = true)
    (hfirst : startsOperand c = true)
    (hargs : ∀ a ∈ args, Enclosed q a) : Splices q (unary f args) args := by
  obtain ⟨a, rfl⟩ := List.length_eq_one_iff.1 hcount
  have ha : Enclosed q a := hargs a List.mem_cons_self
  have hfill : Splices q (f a) (a :: behind.map fun _ => a) := by
    rw [hf]
    exact splices_fill c (b :: behind) _ (by simp) hc hfirst (by simp [ha])
  exact ⟨hfill.closed,
    List.forall_mem_singleton.2 (hfill.contains a List.mem_cons_self)⟩

/-- A template of two arguments is closed when its constants are. -/
theorem splices_binary {f : String → String → String}
    (hcount : args.length = 2) (c b b' : String)
    (hf : ∀ x y, f x y = fill c [x, y] [b, b'])
    (hc : isTemplate c [b, b'] = true) (hfirst : startsOperand c = true)
    (hargs : ∀ a ∈ args, Enclosed q a) : Splices q (binary f args) args := by
  obtain ⟨x, y, rfl⟩ := List.length_eq_two.1 hcount
  have hfill : Splices q (f x y) [x, y] := by
    rw [hf]
    exact splices_fill c [b, b'] [x, y] rfl hc hfirst hargs
  exact hfill

/-- The number of texts is that of the expressions. -/
theorem length_exprTexts {d : Dialect} {es : List Expr} {texts : List String}
    (h : d.exprTexts es = .ok texts) : texts.length = es.length := by
  induction es generalizing texts with
  | nil =>
      cases h
      rfl
  | cons e rest ih =>
      obtain ⟨text, -, h⟩ := bind_eq_ok_iff.mp h
      obtain ⟨others, hothers, h⟩ := bind_eq_ok_iff.mp h
      cases h
      exact congrArg Nat.succ (ih hothers)

/-- The templates of standard SQL are closed, all but the one that adds
days: that is a sum in brackets. -/
theorem splices_ansi_call (dialect : String) {kind : FunctionKind}
    {template : List String → String} (hkind : kind ≠ .addDays)
    (hcount : kind.Takes args.length)
    (htemplate : Ansi.call dialect kind = .ok template)
    (hargs : ∀ a ∈ args, Enclosed q a) :
    Splices q (template args) args := by
  cases kind with
  | addDays => exact absurd rfl hkind
  | randomString => cases htemplate
  | count =>
      cases htemplate
      -- `COUNT` without an argument is written with a star.
      cases args with
      | nil => exact ⟨closed_constant (by decide), by simp⟩
      | cons a rest => exact splices_callText (by decide) (by decide) hargs
  | now =>
      cases htemplate
      obtain rfl := List.eq_nil_of_length_eq_zero
        (Option.some.inj hcount).symm
      have hclosed : ClosedText q "CURRENT_TIMESTAMP" :=
        closed_constant (by decide)
      exact ⟨hclosed, by simp⟩
  -- These have templates of their own, which take some arguments more than
  -- once.
  | daysBetween =>
      cases htemplate
      exact splices_binary (Option.some.inj hcount).symm
        "EXTRACT(DAY FROM (" " - " "))" (fun _ _ => rfl) (by decide)
        (by decide) hargs
  | yyyymmddToDate =>
      cases htemplate
      exact splices_unary (Option.some.inj hcount).symm "CAST(SUBSTRING("
        ", 1, 4) || '-' || SUBSTRING("
        [", 5, 2) || '-' || SUBSTRING(", ", 7, 2) AS DATE)"]
        (fun _ => rfl) (by decide) (by decide) hargs
  | dateToYyyymmdd =>
      cases htemplate
      exact splices_unary (Option.some.inj hcount).symm "CAST(TO_CHAR("
        ", 'YYYYMMDD') AS INTEGER)" [] (fun _ => rfl) (by decide)
        (by decide) hargs
  | dateToYyyymmddHhmmss =>
      cases htemplate
      exact splices_unary (Option.some.inj hcount).symm "CAST(TO_CHAR("
        ", 'YYYYMMDDHH24MISS') AS BIGINT)" [] (fun _ => rfl) (by decide)
        (by decide) hargs
  | leftTrim =>
      cases htemplate
      exact splices_unary (Option.some.inj hcount).symm
        "TRIM(LEADING ' ' FROM " ")" [] (fun _ => rfl) (by decide)
        (by decide) hargs
  | rightTrim =>
      cases htemplate
      exact splices_unary (Option.some.inj hcount).symm
        "TRIM(TRAILING ' ' FROM " ")" [] (fun _ => rfl) (by decide)
        (by decide) hargs
  -- All others are written as a call with their arguments in a row.
  | coalesce | isNull | monthsBetween | addMonths | leftPad
  | lastDayOfMonth | sum | min | max | average | trim | length | upper
  | lower | floor | modulo | round | substring =>
      cases htemplate
      exact splices_callText (by decide) (by decide) hargs

end Calls

end SchemaEvolution

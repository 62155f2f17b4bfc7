import SchemaEvolution.Dialect.ExprText
import SchemaEvolution.Dialect.NuoDb
import SchemaEvolution.Proofs.Sql.SearchCondition
import SchemaEvolution.Proofs.Support.Outcome
import SchemaEvolution.Proofs.Text.Digits

/-!
# `SchemaEvolution.Proofs.Sql.BooleanStructure`: conditions keep their value

A condition is written with brackets around each of its groups and behind
each `NOT`. Read back by precedence, the text has the value of the
condition, whatever the comparisons in it evaluate to. This is so for
conditions without empty groups, and these are all that `Criterion.and`,
`Criterion.or` and `Criterion.not` can build. The names in them have to be
plain ones, since a name may be anything and is not quoted.

* `Criterion.eval`: the value of a condition.
* `Criterion.eval_and`, `Criterion.eval_or`: conditions that grow a group
  have the value of the two conditions.
* `exists_rendering`: what a condition is written as and read as.
* `Criterion.structure_survives`: the text has the value of the condition.
-/

set_option autoImplicit false

namespace SchemaEvolution

open SchemaEvolution.Sql
open SchemaEvolution.Text

/-! ### The value of a condition -/

/-- A condition that contains no other. -/
inductive Condition where
  | compare (op : Comparison) (left right : Expr)
  | isNull (e : Expr)
  | isNotNull (e : Expr)
  | isIn (e : Expr) (values : List Expr)
deriving DecidableEq

namespace Criterion

mutual

/-- The value of a condition under values of the comparisons in it. -/
def eval (v : Condition → Truth) : Criterion → Truth
  | .compare op left right => v (.compare op left right)
  | .isNull e => v (.isNull e)
  | .isNotNull e => v (.isNotNull e)
  | .isIn e values => v (.isIn e values)
  | .all criteria => evalEach v .and criteria
  | .any criteria => evalEach v .or criteria
  | .not c => (eval v c).not

/-- The value of conditions with a connective between them. -/
def evalEach (v : Condition → Truth) (k : Connective) :
    List Criterion → Truth
  | [] => k.neutral
  | c :: rest => k.value (eval v c) (evalEach v k rest)

end

mutual

/-- The comparisons in a condition, from left to right. -/
def conditions : Criterion → List Condition
  | .compare op left right => [.compare op left right]
  | .isNull e => [.isNull e]
  | .isNotNull e => [.isNotNull e]
  | .isIn e values => [.isIn e values]
  | .all criteria | .any criteria => conditionsList criteria
  | .not c => c.conditions

/-- The comparisons in conditions. -/
def conditionsList : List Criterion → List Condition
  | [] => []
  | c :: rest => c.conditions ++ conditionsList rest

end

mutual

/-- Whether no group of a condition is empty. -/
def isFilled : Criterion → Bool
  | .compare _ _ _ | .isNull _ | .isNotNull _ | .isIn _ _ => true
  | .all criteria | .any criteria => !criteria.isEmpty && areFilled criteria
  | .not c => c.isFilled

/-- Whether no group of some conditions is empty. -/
def areFilled : List Criterion → Bool
  | [] => true
  | c :: rest => c.isFilled && areFilled rest

end

/-- What comparisons are built up to. -/
inductive Built : Criterion → Prop where
  | compare (op : Comparison) (left right : Expr) :
      Built (.compare op left right)
  | isNull (e : Expr) : Built (.isNull e)
  | isNotNull (e : Expr) : Built (.isNotNull e)
  | isIn (e : Expr) (values : List Expr) : Built (.isIn e values)
  | and {b c : Criterion} : Built b → Built c → Built (b.and c)
  | or {b c : Criterion} : Built b → Built c → Built (b.or c)
  | not {c : Criterion} : Built c → Built (.not c)

/-! ### Groups that grow -/

/-- A group that takes one more condition in has the value of both, since the
connectives are associative. -/
theorem evalEach_append_singleton (v : Condition → Truth) (k : Connective)
    (cs : List Criterion) (c : Criterion) :
    evalEach v k (cs ++ [c]) = k.value (evalEach v k cs) (c.eval v) := by
  induction cs with
  | nil => simp [evalEach]
  | cons b rest ih =>
      rw [List.cons_append, evalEach, ih, evalEach, k.value_assoc]

/-- A conjunction has the value of its two conditions, also when the first
one is a group that takes the second one in. -/
theorem eval_and (v : Condition → Truth) (b c : Criterion) :
    (b.and c).eval v = (b.eval v).and (c.eval v) := by
  have hpair : (Criterion.all [b, c]).eval v =
      (b.eval v).and (c.eval v) := by
    simp only [eval, evalEach, Connective.value_neutral]
    rfl
  cases b with
  | all cs => exact evalEach_append_singleton v .and cs c
  | compare _ _ _ | isNull _ | isNotNull _ | isIn _ _ | any _ | not _ =>
      exact hpair

/-- So has a disjunction. -/
theorem eval_or (v : Condition → Truth) (b c : Criterion) :
    (b.or c).eval v = (b.eval v).or (c.eval v) := by
  have hpair : (Criterion.any [b, c]).eval v =
      (b.eval v).or (c.eval v) := by
    simp only [eval, evalEach, Connective.value_neutral]
    rfl
  cases b with
  | any cs => exact evalEach_append_singleton v .or cs c
  | compare _ _ _ | isNull _ | isNotNull _ | isIn _ _ | all _ | not _ =>
      exact hpair

/-- It has no empty group if the condition has none. -/
theorem areFilled_append_singleton (cs : List Criterion) (c : Criterion) :
    areFilled (cs ++ [c]) = (areFilled cs && c.isFilled) := by
  induction cs with
  | nil => simp [areFilled]
  | cons b rest ih =>
      rw [List.cons_append, areFilled, ih, areFilled, Bool.and_assoc]

/-- What is built from comparisons has no empty group. -/
theorem Built.isFilled {c : Criterion} (h : c.Built) :
    c.isFilled = true := by
  induction h with
  | compare _ _ _ | isNull _ | isNotNull _ | isIn _ _ => rfl
  | @and b c _ _ hb hc =>
      cases b <;>
        simp_all [Criterion.and, Criterion.isFilled, areFilled,
          areFilled_append_singleton]
  | @or b c _ _ hb hc =>
      cases b <;>
        simp_all [Criterion.or, Criterion.isFilled, areFilled,
          areFilled_append_singleton]
  | not _ ih => exact ih

end Criterion

/-- The group of conditions with a connective between them. -/
def Criterion.group : Connective → List Criterion → Criterion
  | .and => .all
  | .or => .any

/-! ### Plain operands -/

/-- Whether a name is a plain identifier: letters, digits and underscores
that do not begin with a digit, and no word that means something by
itself. -/
def isPlainName (s : String) : Bool :=
  match s.toList with
  | [] => false
  | c :: cs =>
      (c.isAlpha || c = '_') && cs.all (fun d => d.isAlphanum || d = '_') &&
        (fixedWord? (c :: cs)).isNone

/-- Whether an expression is a field with plain names or a number without
a sign. -/
def Expr.isPlain : Expr → Bool
  | .field f =>
      isPlainName f.name && f.table.all fun t => isPlainName t.qualifier
  | .literal (.integer i) => 0 ≤ i.toInt
  | _ => false

/-- The text of a plain expression. -/
def Expr.plainText : Expr → String
  | .field f => f.text
  | .literal (.integer i) => toString i.toInt
  | _ => ""

namespace Condition

/-- A comparison by itself. -/
def criterion : Condition → Criterion
  | .compare op left right => .compare op left right
  | .isNull e => .isNull e
  | .isNotNull e => .isNotNull e
  | .isIn e values => .isIn e values

/-- Whether all operands of a comparison are plain. -/
def isPlain : Condition → Bool
  | .compare _ left right => left.isPlain && right.isPlain
  | .isNull e | .isNotNull e => e.isPlain
  | .isIn e values => e.isPlain && values.all Expr.isPlain

/-- What a comparison is read as, where a `LIKE` declares this escape
character. -/
def reading (mark : Option String) : Condition → Predicate
  | .compare op left right =>
      .compare op left.plainText right.plainText
        (if op = .like then mark else none)
  | .isNull e => .isNull e.plainText
  | .isNotNull e => .isNotNull e.plainText
  | .isIn e values => .isIn e.plainText (values.map Expr.plainText)

end Condition

/-- A word with a character that occurs in no fixed word is none of
them. -/
theorem fixedWord?_eq_none {p : Char → Bool} {cs : List Char} {c : Char}
    (hfixed : fixedWords.all (fun w => !w.1.any p) = true) (hc : c ∈ cs)
    (hp : p c.toUpper = true) : fixedWord? cs = none := by
  rw [fixedWord?, List.lookup_eq_none_iff]
  intro w hw
  rw [bne_iff_ne]
  intro heq
  have hmem : c.toUpper ∈ w.1 := heq ▸ List.mem_map_of_mem hc
  have hany : w.1.any p = true := List.any_eq_true.2 ⟨_, hmem, hp⟩
  have hnone := List.all_eq_true.1 hfixed w hw
  simp [hany] at hnone

/-- Digits are the same in both cases, so that a number is compared with the
fixed words as it is. -/
theorem toUpper_of_isDigit {c : Char} (h : c.isDigit = true) :
    c.toUpper = c := by
  have hdigit : c.val ≤ 57 := by
    simp only [Char.isDigit, Bool.and_eq_true, decide_eq_true_eq] at h
    exact h.2
  unfold Char.toUpper
  split
  · next hlower =>
      have hletter : 97 ≤ c.val := hlower.1
      exact absurd (UInt32.le_trans hletter hdigit) (by decide)
  · rfl

/-- Letters and digits are characters of words. -/
theorem charClass_of_isAlphanum {c : Char} (h : c.isAlphanum = true) :
    charClass c = .word := by
  simp [charClass, h]

/-- What a plain name consists of. -/
theorem word_of_isPlainName {s : String} (h : isPlainName s = true) :
    s.toList ≠ [] ∧ (∀ c ∈ s.toList, charClass c = .word) ∧
      fixedWord? s.toList = none := by
  unfold isPlainName at h
  split at h
  · cases h
  · next c cs hs =>
      rw [hs]
      simp only [Bool.and_eq_true, Bool.or_eq_true, decide_eq_true_eq,
        List.all_eq_true, Option.isNone_iff_eq_none] at h
      obtain ⟨⟨hc, hcs⟩, hfixed⟩ := h
      refine ⟨List.cons_ne_nil _ _, List.forall_mem_cons.2 ⟨?_, ?_⟩, hfixed⟩
      · rcases hc with hc | rfl
        · exact charClass_of_isAlphanum (by simp [Char.isAlphanum, hc])
        · decide
      · intro d hd
        rcases hcs d hd with hd | rfl
        · exact charClass_of_isAlphanum hd
        · decide

/-- A plain name is one operand: no fixed word is spelled like it. -/
theorem isOperand_of_isPlainName {s : String} (h : isPlainName s = true) :
    IsOperand s := by
  obtain ⟨hne, hclass, hfixed⟩ := word_of_isPlainName h
  exact .operand hne hclass hfixed

/-- A name behind the name of its table is an operand, since no fixed word
has a point. -/
theorem isOperand_qualified {s t : String} (hs : isPlainName s = true)
    (ht : isPlainName t = true) : IsOperand (s ++ "." ++ t) := by
  obtain ⟨-, hsclass, -⟩ := word_of_isPlainName hs
  obtain ⟨-, htclass, -⟩ := word_of_isPlainName ht
  have hpoint : (".".toList : List Char) = ['.'] := rfl
  refine .operand (by simp) ?_ (fixedWord?_eq_none (p := (· == '.'))
    (c := '.') (by decide) (by simp [hpoint]) (by decide))
  intro c hc
  simp only [String.toList_append, hpoint, List.mem_append,
    List.mem_singleton] at hc
  rcases hc with (hc | rfl) | hc
  · exact hsclass c hc
  · decide
  · exact htclass c hc

/-- A number is an operand, since no fixed word has a digit. -/
theorem isOperand_toString (n : Nat) : IsOperand (toString n) := by
  have hdigits : (toString n).toList = Nat.toDigits 10 n := by
    rw [Nat.toString_eq_ofList_toDigits, String.toList_ofList]
  have hdigit : ∀ c ∈ (toString n).toList, c.isDigit = true := by
    rw [hdigits]
    exact fun _ => isDigit_of_mem_toDigits
  have hne : (toString n).toList ≠ [] := by
    rw [hdigits]
    exact Nat.toDigits_ne_nil
  have hhead := List.head_mem hne
  refine .operand hne (fun c hc => charClass_of_isAlphanum ?_)
    (fixedWord?_eq_none (p := Char.isDigit) (by decide) hhead ?_)
  · simp [Char.isAlphanum, hdigit c hc]
  · rw [toUpper_of_isDigit (hdigit _ hhead)]
    exact hdigit _ hhead

/-- Plain expressions are operands. -/
theorem isOperand_plainText {e : Expr} (h : e.isPlain = true) :
    IsOperand e.plainText := by
  cases e with
  | field f =>
      obtain ⟨table, name⟩ := f
      simp only [Expr.isPlain, Bool.and_eq_true] at h
      cases table with
      | none => exact isOperand_of_isPlainName h.1
      | some t => exact isOperand_qualified h.2 h.1
  | literal l =>
      cases l with
      | integer i =>
          have hi : 0 ≤ i.toInt := by simpa [Expr.isPlain] using h
          obtain ⟨n, hn⟩ := Int.eq_ofNat_of_zero_le hi
          rw [Expr.plainText, hn]
          exact isOperand_toString n
      | null | string _ | decimal _ | boolean _ | date _ => cases h
  | call _ _ | cast _ _ _ _ | arithmetic _ _ _ | concat _ | aliased _ _ =>
      cases h

/-! ### What is written and read -/

/-- The dialect writes fields and numbers as they are, and lets a `LIKE`
declare this escape character. -/
structure Dialect.WritesPlain (d : Dialect) (mark : Option String) :
    Prop where
  field : ∀ f, d.field f = f.text
  integer : ∀ i, d.literalText (.integer i) = .ok (toString i.toInt)
  like : match mark with
    | none => d.likeSuffix = ""
    | some m => isTail d.likeSuffix [.escape, .literal m] = true

/-- What a condition is written as, the parts that the text is cut into,
and the formula that they make. -/
structure Rendering where
  text : String
  items : List (Item Predicate)
  formula : Formula Condition

/-- The rendering is one of the condition: it is written so and read so,
with the comparisons in their places and with the value of the
condition. -/
structure Rendering.Of (d : Dialect) (mark : Option String) (c : Criterion)
    (r : Rendering) : Prop where
  text : d.criterionText c = .ok r.text
  items : HasItems r.text r.items
  derives : Derives .factor r.items (r.formula.map (Condition.reading mark))
  atoms : r.formula.atoms = c.conditions
  value : ∀ v, r.formula.eval v = c.eval v

namespace Dialect.WritesPlain

variable {d : Dialect} {mark : Option String}

/-- A plain expression is written without a failure, as the dialect has to
write fields and numbers. -/
theorem exprText (hd : d.WritesPlain mark) {e : Expr}
    (he : e.isPlain = true) : d.exprText e = .ok e.plainText := by
  cases e with
  | field f => rw [Dialect.exprText, hd.field, Expr.plainText]
  | literal l =>
      cases l with
      | integer i => rw [Dialect.exprText, hd.integer, Expr.plainText]
      | null | string _ | decimal _ | boolean _ | date _ => cases he
  | call _ _ | cast _ _ _ _ | arithmetic _ _ _ | concat _ | aliased _ _ =>
      cases he

/-- So are plain expressions in a row. -/
theorem exprListText (hd : d.WritesPlain mark) {es : List Expr}
    (hes : ∀ e ∈ es, e.isPlain = true) :
    d.exprListText es = .ok (", ".intercalate (es.map Expr.plainText)) := by
  have htexts : d.exprTexts es = .ok (es.map Expr.plainText) := by
    induction es with
    | nil => rfl
    | cons e rest ih =>
        obtain ⟨he, hrest⟩ := List.forall_mem_cons.1 hes
        rw [Dialect.exprTexts, hd.exprText he, ih hrest]
        rfl
  rw [Dialect.exprListText, htexts]
  rfl

/-- The text of a comparison is one predicate. -/
theorem exists_text (hd : d.WritesPlain mark) (a : Condition)
    (ha : a.isPlain = true) : ∃ text,
      d.criterionText a.criterion = .ok text ∧
      HasItems text [.atom (a.reading mark)] := by
  cases a with
  | compare op left right =>
      obtain ⟨hleft, hright⟩ := Bool.and_eq_true_iff.1 ha
      have hl := isOperand_plainText hleft
      have hr := isOperand_plainText hright
      refine ⟨left.plainText ++ " " ++ op.symbol ++ " " ++
        right.plainText ++ (if op = .like then d.likeSuffix else ""), ?_, ?_⟩
      · rw [Condition.criterion, Dialect.criterionText, hd.exprText hleft,
          hd.exprText hright]
        rfl
      · have hlike := hd.like
        by_cases hop : op = .like
        · subst hop
          rw [if_pos rfl, Condition.reading, if_pos rfl]
          cases mark with
          | none =>
              -- Without an escape character nothing follows the pattern.
              rw [show d.likeSuffix = "" from hlike, String.append_empty]
              exact .compare hl hr .like
          | some m => exact .like hl hr hlike
        · rw [if_neg hop, String.append_empty, Condition.reading,
            if_neg hop]
          exact .compare hl hr op
  | isNull e =>
      refine ⟨_, ?_, .isNull (isOperand_plainText ha)⟩
      rw [Condition.criterion, Dialect.criterionText, hd.exprText ha]
      rfl
  | isNotNull e =>
      refine ⟨_, ?_, .isNotNull (isOperand_plainText ha)⟩
      rw [Condition.criterion, Dialect.criterionText, hd.exprText ha]
      rfl
  | isIn e values =>
      obtain ⟨he, hall⟩ := Bool.and_eq_true_iff.1 ha
      have hvalues := List.all_eq_true.1 hall
      have hoperands : ∀ v ∈ values.map Expr.plainText, IsOperand v := by
        intro v hv
        obtain ⟨x, hx, rfl⟩ := List.mem_map.1 hv
        exact isOperand_plainText (hvalues x hx)
      refine ⟨_, ?_, .isIn (isOperand_plainText he) hoperands⟩
      rw [Condition.criterion, Dialect.criterionText, hd.exprText he,
        hd.exprListText hvalues]
      rfl

/-- A comparison is a primary with the value that it is given. -/
theorem rendering_condition (hd : d.WritesPlain mark) (a : Condition)
    (ha : a.isPlain = true) : ∃ r, Rendering.Of d mark a.criterion r := by
  obtain ⟨text, htext, hitems⟩ := hd.exists_text a ha
  refine ⟨⟨text, _, .atom a⟩, htext, hitems, .primary (.atom _), ?_,
    fun v => ?_⟩
  · cases a <;> rfl
  · cases a <;> rfl

end Dialect.WritesPlain

namespace Rendering

variable {d : Dialect} {mark : Option String}

/-- A negation of what has been rendered, in brackets. -/
theorem Of.not {c : Criterion} {r : Rendering} (h : Of d mark c r) :
    ∃ r', Of d mark (.not c) r' := by
  refine ⟨⟨_, _, .not r.formula⟩, ?_, h.items.not,
    .not (.group h.derives.factor.term), h.atoms, fun v => ?_⟩
  · rw [Dialect.criterionText, h.text]
    rfl
  · rw [Formula.eval, h.value, Criterion.eval]

/-- The renderings are those of the conditions, one by one. -/
structure OfEach (d : Dialect) (mark : Option String) (cs : List Criterion)
    (rs : List Rendering) : Prop where
  length : rs.length = cs.length
  texts : d.criterionTexts cs = .ok (rs.map Rendering.text)
  items : ∀ r ∈ rs, HasItems r.text r.items
  derives : ∀ r ∈ rs,
    Derives .factor r.items (r.formula.map (Condition.reading mark))
  atoms : (rs.flatMap fun r => r.formula.atoms) =
    Criterion.conditionsList cs
  value : ∀ v (k : Connective),
    rs.foldr (fun r t => k.value (r.formula.eval v) t) k.neutral =
      Criterion.evalEach v k cs

/-- A group of no conditions has no renderings. It is not written by itself:
a group in brackets has at least one. -/
theorem OfEach.nil : OfEach d mark [] [] :=
  ⟨rfl, rfl, by simp, by simp, rfl, fun _ _ => rfl⟩

/-- A rendering of the first condition and renderings of the others are
renderings of all of them. -/
theorem OfEach.cons {c : Criterion} {r : Rendering} {cs : List Criterion}
    {rs : List Rendering} (h : Of d mark c r) (hs : OfEach d mark cs rs) :
    OfEach d mark (c :: cs) (r :: rs) where
  length := congrArg Nat.succ hs.length
  texts := by
    rw [Dialect.criterionTexts, h.text, hs.texts]
    rfl
  items := List.forall_mem_cons.2 ⟨h.items, hs.items⟩
  derives := List.forall_mem_cons.2 ⟨h.derives, hs.derives⟩
  atoms := by
    rw [List.flatMap_cons, h.atoms, hs.atoms, Criterion.conditionsList]
  value v k := by
    rw [List.foldr_cons, h.value, hs.value, Criterion.evalEach]

/-- Conditions that have been rendered make a group, in brackets. -/
theorem OfEach.group {cs : List Criterion} {rs : List Rendering}
    (hs : OfEach d mark cs rs) (hne : cs ≠ []) (k : Connective) :
    ∃ r, Of d mark (.group k cs) r := by
  -- A group that is not empty begins with one rendering.
  have hlength : 0 < rs.length := by
    rw [hs.length]
    exact List.length_pos_of_ne_nil hne
  obtain ⟨r, rest, rfl⟩ :=
    List.exists_cons_of_ne_nil (List.ne_nil_of_length_pos hlength)
  obtain ⟨hitems, hrestItems⟩ := List.forall_mem_cons.1 hs.items
  obtain ⟨hderives, hrestDerives⟩ := List.forall_mem_cons.1 hs.derives
  refine ⟨⟨_, _, .row k r.formula Rendering.formula rest⟩, ?_,
    (hitems.row hrestItems k).group, ?_, ?_, fun v => ?_⟩
  · have htexts := hs.texts
    cases k <;>
      · rw [Criterion.group, Dialect.criterionText, htexts]
        rfl
  · rw [Formula.map_row]
    exact .primary (.group (hderives.row hrestDerives))
  · have hatoms := hs.atoms
    rw [List.flatMap_cons] at hatoms
    rw [Formula.atoms_row, hatoms]
    cases k <;> rfl
  · have hvalue := hs.value v k
    rw [List.foldr_cons] at hvalue
    rw [Formula.eval_row, hvalue]
    cases k <;> rfl

end Rendering

mutual

/-- A condition without empty groups and with plain operands has a
rendering. -/
theorem exists_rendering {d : Dialect} {mark : Option String}
    (hd : d.WritesPlain mark) : ∀ c : Criterion, c.isFilled = true →
      (∀ a ∈ c.conditions, a.isPlain = true) →
      ∃ r, Rendering.Of d mark c r
  | .compare op left right, _, hplain =>
      hd.rendering_condition (.compare op left right)
        (hplain _ List.mem_cons_self)
  | .isNull e, _, hplain =>
      hd.rendering_condition (.isNull e) (hplain _ List.mem_cons_self)
  | .isNotNull e, _, hplain =>
      hd.rendering_condition (.isNotNull e) (hplain _ List.mem_cons_self)
  | .isIn e values, _, hplain =>
      hd.rendering_condition (.isIn e values) (hplain _ List.mem_cons_self)
  -- A group is rendered only if it has members. This is where empty groups
  -- are left out.
  | .all criteria, hfilled, hplain => by
      simp only [Criterion.isFilled, Bool.and_eq_true, Bool.not_eq_true',
        List.isEmpty_eq_false_iff] at hfilled
      obtain ⟨rs, hrs⟩ := exists_renderings hd criteria hfilled.2 hplain
      exact hrs.group hfilled.1 .and
  | .any criteria, hfilled, hplain => by
      simp only [Criterion.isFilled, Bool.and_eq_true, Bool.not_eq_true',
        List.isEmpty_eq_false_iff] at hfilled
      obtain ⟨rs, hrs⟩ := exists_renderings hd criteria hfilled.2 hplain
      exact hrs.group hfilled.1 .or
  | .not c, hfilled, hplain => by
      obtain ⟨r, hr⟩ := exists_rendering hd c hfilled hplain
      exact hr.not

/-- So have conditions in a row. -/
theorem exists_renderings {d : Dialect} {mark : Option String}
    (hd : d.WritesPlain mark) : ∀ cs : List Criterion,
      Criterion.areFilled cs = true →
      (∀ a ∈ Criterion.conditionsList cs, a.isPlain = true) →
      ∃ rs, Rendering.OfEach d mark cs rs
  | [], _, _ => ⟨[], .nil⟩
  | c :: rest, hfilled, hplain => by
      simp only [Criterion.areFilled, Bool.and_eq_true] at hfilled
      obtain ⟨hc, hrest⟩ := List.forall_mem_append.1 hplain
      obtain ⟨r, hr⟩ := exists_rendering hd c hfilled.1 hc
      obtain ⟨rs, hrs⟩ := exists_renderings hd rest hfilled.2 hrest
      exact ⟨r :: rs, .cons hr hrs⟩

end

/-! ### Standard SQL and NuoDB -/

/-- The text of the condition is read back as a formula over its own
comparisons, in their order, that has the value of the condition whatever
they evaluate to. -/
def Dialect.KeepsStructure (d : Dialect) (mark : Option String)
    (c : Criterion) : Prop :=
  ∃ text f, d.criterionText c = .ok text ∧
    searchCondition? text = some (Formula.map (Condition.reading mark) f) ∧
    f.atoms = c.conditions ∧ ∀ v, f.eval v = c.eval v

/-- Every dialect that writes plain expressions as they are keeps the
structure, whatever else it has of its own. -/
theorem Dialect.WritesPlain.keepsStructure {d : Dialect}
    {mark : Option String} (hd : d.WritesPlain mark) {c : Criterion}
    (hfilled : c.isFilled = true)
    (hplain : ∀ a ∈ c.conditions, a.isPlain = true) :
    d.KeepsStructure mark c := by
  obtain ⟨r, hr⟩ := exists_rendering hd c hfilled hplain
  exact ⟨r.text, r.formula, hr.text,
    searchCondition?_eq hr.items hr.derives.factor.term, hr.atoms, hr.value⟩

/-- Standard SQL declares the backslash as the escape character of a `LIKE`.
-/
theorem ansi_writesPlain : Dialect.ansi.WritesPlain (some "\\") :=
  ⟨fun _ => rfl, fun _ => rfl, by decide⟩

/-- NuoDB declares none. -/
theorem nuoDb_writesPlain : Dialect.nuoDb.WritesPlain none :=
  ⟨fun _ => rfl, fun _ => rfl, rfl⟩

/-- Boolean structure survives being written. The text of a condition
without empty groups, over fields with plain names and numbers without a
sign, is read by precedence as something of the same value, whatever the
comparisons evaluate to. Conditions that are built up have no empty group,
and taking a condition into a group gives the conjunction or disjunction
that it should. -/
theorem Criterion.structure_survives :
    (∀ c : Criterion, c.isFilled = true →
      (∀ a ∈ c.conditions, a.isPlain = true) →
      Dialect.ansi.KeepsStructure (some "\\") c ∧
        Dialect.nuoDb.KeepsStructure none c) ∧
    (∀ c : Criterion, c.Built → c.isFilled = true) ∧
    ∀ (v : Condition → Truth) (b c : Criterion),
      (b.and c).eval v = (b.eval v).and (c.eval v) ∧
        (b.or c).eval v = (b.eval v).or (c.eval v) :=
  ⟨fun _ hfilled hplain =>
      ⟨ansi_writesPlain.keepsStructure hfilled hplain,
        nuoDb_writesPlain.keepsStructure hfilled hplain⟩,
    fun _ h => h.isFilled,
    fun v b c => ⟨Criterion.eval_and v b c, Criterion.eval_or v b c⟩⟩

/-- The orders that are left to look at: large or unpaid ones, but none of
a test customer. -/
def openOrders : Criterion :=
  ((Criterion.compare .gt (.ofName "Total") (.literal (.integer 500))).or
    (.isNull (.ofName "Paid"))).and
    (.not (.all [.compare .like (.field ⟨some ⟨"Customer", none, some "c"⟩,
      "Code"⟩) (.ofName "TestPattern")]))

/-- The condition is written with a bracket more than it needs, and means
what it says in both dialects. -/
theorem openOrders_survives :
    Dialect.ansi.criterionText openOrders =
      .ok ("((Total > 500 OR Paid IS NULL) AND " ++
        "NOT ((c.Code LIKE TestPattern ESCAPE '\\')))") ∧
    Dialect.ansi.KeepsStructure (some "\\") openOrders ∧
    Dialect.nuoDb.KeepsStructure none openOrders := by
  have hplain : ∀ a ∈ openOrders.conditions, a.isPlain = true := by decide
  exact ⟨by decide,
    Criterion.structure_survives.1 openOrders (by decide) hplain⟩

end SchemaEvolution

import SchemaEvolution.Proofs.Sql.Precedence
import SchemaEvolution.Proofs.Sql.Words

/-!
# `SchemaEvolution.Proofs.Sql.SearchCondition`: a text read as a condition

The words of a condition are cut into predicates, connectives and
brackets. Not every `NOT` is a connective, and not every bracket is one of
the condition: `IS NOT NULL` and the values behind `IN` belong to their
predicates. What is left is read by precedence.

* `HasItems.compare`, `HasItems.isIn` and their siblings: how predicates
  are written.
* `HasItems.group`, `HasItems.not`: brackets and negations.
* `searchCondition?_eq`: a text is read as what its parts derive.
-/

set_option autoImplicit false

namespace SchemaEvolution.Sql

/-- A condition that contains no other, as it is read. -/
inductive Predicate where
  | compare (op : Comparison) (left right : String)
      (escape : Option String)
  | isNull (operand : String)
  | isNotNull (operand : String)
  | isIn (operand : String) (values : List String)
deriving DecidableEq

/-- Where a reader of words stands: between predicates, or behind some of
the values that an operand is looked for in. -/
inductive ItemState where
  | outside
  | values (operand : String) (read : List String)

/-- Cuts words into the parts of a condition. -/
def items? : ItemState → List Word → Option (List (Item Predicate))
  | .outside, [] => some []
  | .outside, .and :: ws => (items? .outside ws).map (.and :: ·)
  | .outside, .or :: ws => (items? .outside ws).map (.or :: ·)
  | .outside, .not :: ws => (items? .outside ws).map (.not :: ·)
  | .outside, .opening :: ws => (items? .outside ws).map (.opening :: ·)
  | .outside, .closing :: ws => (items? .outside ws).map (.closing :: ·)
  | .outside, .operand a :: .comparison .like :: .operand b :: .escape ::
      .literal s :: ws =>
      (items? .outside ws).map (.atom (.compare .like a b (some s)) :: ·)
  | .outside, .operand a :: .comparison op :: .operand b :: ws =>
      (items? .outside ws).map (.atom (.compare op a b none) :: ·)
  | .outside, .operand a :: .is :: .null :: ws =>
      (items? .outside ws).map (.atom (.isNull a) :: ·)
  | .outside, .operand a :: .is :: .not :: .null :: ws =>
      (items? .outside ws).map (.atom (.isNotNull a) :: ·)
  | .outside, .operand a :: .isIn :: .opening :: ws =>
      items? (.values a []) ws
  | .values a [], .closing :: ws =>
      (items? .outside ws).map (.atom (.isIn a []) :: ·)
  | .values a read, .operand b :: .closing :: ws =>
      (items? .outside ws).map (.atom (.isIn a (read ++ [b])) :: ·)
  | .values a read, .operand b :: .comma :: ws =>
      items? (.values a (read ++ [b])) ws
  | _, _ => none

/-- The condition that a text is read as. -/
def searchCondition? (s : String) : Option (Formula Predicate) := do
  let ws ← words? s.toList
  let items ← items? .outside ws
  parse? items

/-! ### Words and their parts -/

/-- The word that a connective is. -/
def Connective.word : Connective → Word
  | .and => .and
  | .or => .or

/-- Words are cut into parts, before all words that do not go on with an
escape character. -/
def CutInto (ws : List Word) (items : List (Item Predicate)) : Prop :=
  ∀ rest, rest.head? ≠ some .escape →
    items? .outside (ws ++ rest) =
      (items? .outside rest).map (items ++ ·)

namespace CutInto

variable {ws vs : List Word} {items others : List (Item Predicate)}

/-- A comparison ends with its second operand, if no escape character
follows. -/
theorem compare (op : Comparison) (a b : String) :
    CutInto [.operand a, .comparison op, .operand b]
      [.atom (.compare op a b none)] := by
  intro rest hrest
  cases op with
  | like =>
      -- Only a pattern can go on with an escape character.
      match rest with
      | [] => rfl
      | .escape :: _ => exact absurd rfl hrest
      | .and :: _ | .or :: _ | .not :: _ | .is :: _ | .null :: _
      | .isIn :: _ | .comparison _ :: _ | .opening :: _ | .closing :: _
      | .comma :: _ | .operand _ :: _ | .literal _ :: _
      | .unknown :: _ => rfl
  | eq | notEq | lt | ltEq | gt | gtEq => rfl

/-- A pattern with its escape character is one item. -/
theorem like (a b m : String) :
    CutInto [.operand a, .comparison .like, .operand b, .escape, .literal m]
      [.atom (.compare .like a b (some m))] :=
  fun _ _ => rfl

/-- So is a test for a missing value. -/
theorem isNull (a : String) :
    CutInto [.operand a, .is, .null] [.atom (.isNull a)] :=
  fun _ _ => rfl

/-- The negation in such a test belongs to the test: it negates no condition.
-/
theorem isNotNull (a : String) :
    CutInto [.operand a, .is, .not, .null] [.atom (.isNotNull a)] :=
  fun _ _ => rfl

/-- The list of values may be empty. -/
theorem isIn_nil (a : String) :
    CutInto [.operand a, .isIn, .opening, .closing]
      [.atom (.isIn a [])] :=
  fun _ _ => rfl

/-- Values are taken up one by one until the bracket closes. -/
theorem items?_values (a : String) (read : List String) (b : String)
    (bs : List String) (rest : List Word) :
    items? (.values a read) (.operand b ::
        (bs.flatMap fun c => [.comma, .operand c]) ++ .closing :: rest) =
      (items? .outside rest).map
        (.atom (.isIn a (read ++ b :: bs)) :: ·) := by
  induction bs generalizing read b with
  | nil => cases read <;> rfl
  | cons c cs ih =>
      have hread := ih (read ++ [b]) c
      rw [List.append_assoc] at hread
      cases read <;> exact hread

/-- However many values there are, the test is one item, as its commas and
its bracket are not those of a condition. -/
theorem isIn (a b : String) (bs : List String) :
    CutInto ([.operand a, .isIn, .opening] ++ .operand b ::
        (bs.flatMap fun c => [.comma, .operand c]) ++ [.closing])
      [.atom (.isIn a (b :: bs))] := by
  intro rest _
  rw [List.append_assoc]
  exact items?_values a [] b bs rest

/-- A connective between words. -/
theorem between (h : CutInto ws items) (h' : CutInto vs others)
    (k : Connective) :
    CutInto (ws ++ [k.word] ++ vs) (items ++ k.item :: others) := by
  intro rest hrest
  -- A connective is no escape character, so the words before it end
  -- there.
  have hword : (k.word :: (vs ++ rest)).head? ≠ some .escape := by
    cases k <;> simp [Connective.word]
  have hitem : items? .outside (k.word :: (vs ++ rest)) =
      (items? .outside (vs ++ rest)).map (k.item :: ·) := by
    cases k <;> rfl
  rw [List.append_assoc, List.append_assoc]
  refine (h _ hword).trans ?_
  rw [hitem, h' rest hrest, Option.map_map, Option.map_map]
  simp [Function.comp_def]

/-- Words in brackets. -/
theorem group (h : CutInto ws items) :
    CutInto ([.opening] ++ ws ++ [.closing])
      (.opening :: (items ++ [.closing])) := by
  intro rest _
  have hclosing : (Word.closing :: rest).head? ≠ some .escape := by simp
  have hopening : items? .outside ([.opening] ++ ws ++ [.closing] ++ rest) =
      (items? .outside (ws ++ .closing :: rest)).map (.opening :: ·) := by
    simp [items?]
  rw [hopening, h _ hclosing]
  simp [items?, Function.comp_def]

/-- Words behind a `NOT`. -/
theorem not (h : CutInto ws items) :
    CutInto (.not :: ws) (.not :: items) := by
  intro rest hrest
  rw [List.cons_append, items?, h rest hrest, Option.map_map]
  rfl

end CutInto

/-! ### Texts and their parts -/

/-- A text by itself and the parts of the condition that it is. -/
def HasItems (s : String) (items : List (Item Predicate)) : Prop :=
  ∃ ws, HasWords s ws ∧ CutInto ws items

/-- A text that is an operand. -/
def IsOperand (s : String) : Prop := HasWords s [.operand s]

/-- The text of a connective. -/
def Connective.text : Connective → String
  | .and => " AND "
  | .or => " OR "

namespace HasItems

variable {a b s t : String} {items others : List (Item Predicate)}

/-- The words of a comparison. -/
theorem words_compare (ha : IsOperand a) (hb : IsOperand b)
    (op : Comparison) :
    HasWords (a ++ " " ++ op.symbol ++ " " ++ b)
      [.operand a, .comparison op, .operand b] := by
  have hsign : isSeparator (" " ++ op.symbol ++ " ") [.comparison op] =
      true := by
    cases op <;> decide
  simpa [String.append_assoc] using HasWords.between ha hb hsign

/-- A comparison is one item, without an escape character. -/
theorem compare (ha : IsOperand a) (hb : IsOperand b) (op : Comparison) :
    HasItems (a ++ " " ++ op.symbol ++ " " ++ b)
      [.atom (.compare op a b none)] :=
  ⟨_, words_compare ha hb op, .compare op a b⟩

/-- A `LIKE` that declares an escape character. -/
theorem like (ha : IsOperand a) (hb : IsOperand b) {m suffix : String}
    (hsuffix : isTail suffix [.escape, .literal m] = true) :
    HasItems (a ++ " " ++ Comparison.like.symbol ++ " " ++ b ++ suffix)
      [.atom (.compare .like a b (some m))] :=
  ⟨_, (words_compare ha hb .like).before hsuffix, .like a b m⟩

/-- So is the test for a missing value. -/
theorem isNull (ha : IsOperand a) :
    HasItems (a ++ " IS NULL") [.atom (.isNull a)] := by
  have hnull : isTail " IS NULL" [.is, .null] = true := by decide
  exact ⟨_, ha.before hnull, .isNull a⟩

/-- So is the test for one that is there. -/
theorem isNotNull (ha : IsOperand a) :
    HasItems (a ++ " IS NOT NULL") [.atom (.isNotNull a)] := by
  have hnull : isTail " IS NOT NULL" [.is, .not, .null] = true := by decide
  exact ⟨_, ha.before hnull, .isNotNull a⟩

/-- So is the test for one of some values, each of which is an operand. -/
theorem isIn (ha : IsOperand a) {values : List String}
    (hvalues : ∀ v ∈ values, IsOperand v) :
    HasItems (a ++ " IN (" ++ ", ".intercalate values ++ ")")
      [.atom (.isIn a values)] := by
  cases values with
  | nil =>
      have hin : isTail " IN ()" [.isIn, .opening, .closing] = true := by
        decide
      refine ⟨_, ?_, .isIn_nil a⟩
      simpa [String.append_assoc] using ha.before hin
  | cons b bs =>
      obtain ⟨hb, hbs⟩ := List.forall_mem_cons.1 hvalues
      have hin : isSeparator " IN (" [.isIn, .opening] = true := by decide
      have hcomma : isSeparator ", " [.comma] = true := by decide
      have hclosing : isTail ")" [.closing] = true := by decide
      have hlist : HasWords (", ".intercalate (b :: bs.map id))
          (.operand b :: bs.flatMap fun c => [.comma, .operand c]) :=
        HasWords.intercalate hb hbs hcomma
      rw [List.map_id] at hlist
      exact ⟨_, (ha.between hlist hin).before hclosing, .isIn a b bs⟩

/-- A connective between two texts. -/
theorem between (hs : HasItems s items) (ht : HasItems t others)
    (k : Connective) :
    HasItems (s ++ k.text ++ t) (items ++ k.item :: others) := by
  obtain ⟨ws, hws, hitems⟩ := hs
  obtain ⟨vs, hvs, hothers⟩ := ht
  have htext : isSeparator k.text [k.word] = true := by
    cases k <;> decide
  exact ⟨_, hws.between hvs htext, hitems.between hothers k⟩

/-- Texts with a connective between them. -/
theorem row {ι : Type} {parts : List ι} {text : ι → String}
    {itemsOf : ι → List (Item Predicate)} (hs : HasItems s items)
    (hparts : ∀ p ∈ parts, HasItems (text p) (itemsOf p))
    (k : Connective) :
    HasItems (k.text.intercalate (s :: parts.map text))
      (items ++ parts.flatMap fun p => k.item :: itemsOf p) := by
  induction parts generalizing s items with
  | nil => simpa using hs
  | cons p rest ih =>
      obtain ⟨hp, hrest⟩ := List.forall_mem_cons.1 hparts
      have hboth := hs.between (ih hp hrest) k
      simpa [String.intercalate_cons_cons] using hboth

/-- A text in brackets. -/
theorem group (hs : HasItems s items) :
    HasItems ("(" ++ s ++ ")") (.opening :: (items ++ [.closing])) := by
  obtain ⟨ws, hws, hitems⟩ := hs
  have hopening : isLead "(" [.opening] = true := by decide
  have hclosing : isTail ")" [.closing] = true := by decide
  exact ⟨_, (hws.behind hopening).before hclosing, hitems.group⟩

/-- A text in brackets behind a `NOT`. -/
theorem not (hs : HasItems s items) :
    HasItems ("NOT (" ++ s ++ ")")
      (.not :: .opening :: (items ++ [.closing])) := by
  obtain ⟨ws, hws, hitems⟩ := hs
  have hopening : isLead "NOT (" [.not, .opening] = true := by decide
  have hclosing : isTail ")" [.closing] = true := by decide
  exact ⟨_, (hws.behind hopening).before hclosing, hitems.group.not⟩

end HasItems

/-- A text is read as the formula that its parts derive. -/
theorem searchCondition?_eq {s : String} {items : List (Item Predicate)}
    {f : Formula Predicate} (hs : HasItems s items)
    (hf : Derives .condition items f) : searchCondition? s = some f := by
  obtain ⟨ws, hws, hitems⟩ := hs
  have hall := hitems [] (by simp)
  rw [List.append_nil] at hall
  simp [searchCondition?, hws.words, hall, items?,
    parse?_eq_some_iff.2 hf]

example :
    searchCondition? "a = 1 or not t.b is not null AND c <> 2" =
      some (.or (.atom (.compare .eq "a" "1" none))
        (.and (.not (.atom (.isNotNull "t.b")))
          (.atom (.compare .notEq "c" "2" none)))) := by
  decide

end SchemaEvolution.Sql

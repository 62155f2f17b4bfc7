import SchemaEvolution.Proofs.Sql.ScalarText

/-!
# `SchemaEvolution.Proofs.Sql.Strings`: computing with strings

The expressions of SQL that are read here compute with strings and whole
numbers: the functions on strings, `||`, the four operations, and `CASE`.
Names and the calls of other functions are worth what `row` says of their
lexemes, as with the terms of `SchemaEvolution.Proofs.Sql.Scalars`.

Brackets are taken from the inside out. A bracket that closes becomes one
item, with the values of its arguments, and a `CASE` that ends becomes one
with the value that was chosen. So the items of an expression have no
brackets in them, and what separates them is looked for in a row: first
keywords, comparisons and commas, then bars, and operators last. This module
is about items; `SchemaEvolution.Proofs.Sql.StringText` takes them from
texts.

* `leftPadded`, `replaceAll`: what the functions make of strings.
* `value?`: the value of items.
* `not_separates_of_value?`: what has a value is not cut apart by what is
  looked for around it.
* `value?_operation`, `value?_concat`, `cases?_choice`: the values of items
  from those of their parts.
* `arguments_cons`, `argument_typed`: the arguments of a call.
-/

set_option autoImplicit false

namespace SchemaEvolution.Sql.Strings

/-! ### Strings -/

/-- The string with `fill` put in front up to `n` characters, or the first
`n` characters of it if it has more. -/
def leftPadded (s : String) (n : Nat) (fill : Char) : String :=
  if s.length ≤ n then
    String.ofList (List.replicate (n - s.length) fill) ++ s
  else String.ofList (s.toList.take n)

/-- The characters with `new` in place of `old` wherever it stands, from
the left. The number is that of characters that still belong to what was
just replaced. -/
def replaceAll (old new : List Char) : Nat → List Char → List Char
  | _, [] => []
  | skip + 1, _ :: cs => replaceAll old new skip cs
  | 0, c :: cs =>
      if old.isPrefixOf (c :: cs) then
        new ++ replaceAll old new (old.length - 1) cs
      else c :: replaceAll old new 0 cs

/-- The string without the blanks at its ends. -/
def trimmed (s : String) : String :=
  let front := s.toList.dropWhile (· = ' ')
  String.ofList (front.reverse.dropWhile (· = ' ')).reverse

/-- A padded string has as many characters as it was to have. -/
theorem length_leftPadded (s : String) (n : Nat) (fill : Char) :
    (leftPadded s n fill).length = n := by
  unfold leftPadded
  split
  · simp only [String.length_append, String.length_ofList,
      List.length_replicate]
    omega
  · simp only [String.length_ofList, List.length_take, String.length_toList]
    omega

/-- A string with enough characters is cut. -/
theorem leftPadded_of_le {s : String} {n : Nat} (h : n ≤ s.length)
    (fill : Char) : leftPadded s n fill = String.ofList (s.toList.take n) := by
  unfold leftPadded
  split
  · next hle =>
      obtain rfl := Nat.le_antisymm h hle
      simp [← String.length_toList]
  · rfl

/-- Of characters that are all alike, each is replaced. -/
theorem replaceAll_replicate (c fill : Char) (n : Nat) :
    replaceAll [c] [fill] 0 (List.replicate n c) =
      List.replicate n fill := by
  induction n with
  | zero => rfl
  | succ n ih =>
      have hmatch : [c].isPrefixOf (c :: List.replicate n c) = true := by
        simp
      rw [List.replicate_succ, replaceAll, if_pos hmatch]
      simpa [List.replicate_succ] using ih

/-! ### Values and functions -/

/-- A string, or a date or a number. -/
inductive Datum where
  | text (s : String)
  | scalar (v : Value)
deriving DecidableEq

/-- A whole number. -/
@[match_pattern]
def Datum.number (i : Int) : Datum := .scalar (.number i)

/-- An argument of a call: a value, a value with a type behind `AS`, or
something else. -/
inductive Argument where
  | value (d : Datum)
  | typed (d : Datum) (type : String)
  | unknown
deriving DecidableEq

/-- The argument that has a value, if it has one. -/
def Argument.ofDatum? : Option Datum → Argument
  | some d => .value d
  | none => .unknown

/-- The functions that strings are computed with. -/
inductive StringFunction where
  | cast
  | length
  | leftPad
  | replace
  | substring
  | trim
deriving DecidableEq

namespace StringFunction

/-- The name of a function. -/
def name : StringFunction → String
  | .cast => "CAST"
  | .length => "LENGTH"
  | .leftPad => "LPAD"
  | .replace => "REPLACE"
  | .substring => "SUBSTRING"
  | .trim => "TRIM"

/-- The function that a word is the name of, in any case. -/
def ofText? (s : String) : Option StringFunction :=
  [cast, length, leftPad, replace, substring, trim].find? fun f =>
    s.toList.map Char.toUpper = f.name.toList

/-- What a function makes of its arguments. A string is padded with one
character here, and nothing is replaced that is empty. -/
def result? : StringFunction → List Argument → Option Datum
  | .cast, [.typed (.text s) type] =>
      if type = "STRING" then some (.text s) else none
  | .length, [.value (.text s)] => some (.number s.length)
  | .leftPad, [.value (.text s), .value (.number n), .value (.text fill)] =>
      match fill.toList with
      | [c] =>
          if 0 ≤ n then some (.text (leftPadded s n.toNat c)) else none
      | _ => none
  | .replace,
      [.value (.text s), .value (.text old), .value (.text new)] =>
      if old = "" then none
      else
        some (.text
          (String.ofList (replaceAll old.toList new.toList 0 s.toList)))
  | .substring,
      [.value (.text s), .value (.number start), .value (.number count)] =>
      if 1 ≤ start ∧ 0 ≤ count then
        some (.text (String.ofList
          ((s.toList.drop (start.toNat - 1)).take count.toNat)))
      else none
  | .trim, [.value (.text s)] => some (.text (trimmed s))
  | _, _ => none

end StringFunction

/-- What an operation makes of two values. -/
def operationDatum? (op : Operator) : Datum → Datum → Option Datum
  | .scalar a, .scalar b => (op.value? a b).map .scalar
  | _, _ => none

/-- The value of operations over values. -/
def arithmeticDatum? : Arithmetic Datum → Option Datum
  | .operand d => some d
  | .operation op left right => do
      operationDatum? op (← arithmeticDatum? left) (← arithmeticDatum? right)

/-- Two strings behind one another. -/
def concatDatum? : Datum → Datum → Option Datum
  | .text s, .text t => some (.text (s ++ t))
  | _, _ => none

/-- Whether a comparison holds. Strings are not compared. -/
def holdsDatum? (test : Comparison) : Datum → Datum → Option Bool
  | .scalar a, .scalar b => test.holds? a b
  | _, _ => none

/-! ### Items -/

/-- The words that are neither names nor numbers. -/
inductive Keyword where
  | WHEN
  | THEN
  | ELSE
  | AS
deriving DecidableEq

/-- The word itself. -/
def Keyword.text : Keyword → String
  | .WHEN => "WHEN"
  | .THEN => "THEN"
  | .ELSE => "ELSE"
  | .AS => "AS"

/-- The keyword that a word is, in any case. -/
def Keyword.ofText? (s : String) : Option Keyword :=
  [.WHEN, .THEN, .ELSE, .AS].find? fun k : Keyword =>
    s.toList.map Char.toUpper = k.text.toList

/-- A lexeme outside of brackets, or a bracket with its lexemes and what
stands in it. -/
inductive Item where
  | leaf (x : Lexeme)
  | bracket (b : Bracket) (ls : List Lexeme) (args : List Argument)
deriving DecidableEq

namespace Item

/-- One of the bars of `||`. -/
def bar : Item := .leaf (.mark '|')

/-- What stands between arguments. -/
def comma : Item := .leaf (.mark ',')

/-- The lexemes that an item is made of. -/
def lexemes : Item → List Lexeme
  | .leaf x => [x]
  | .bracket _ ls _ => ls

/-- The mark that an item is, if it is one. -/
def mark? : Item → Option Char
  | .leaf (.mark c) => some c
  | _ => none

/-- The keyword that an item is, if it is one. -/
def keyword? : Item → Option Keyword
  | .leaf (.word w) => Keyword.ofText? w
  | _ => none

/-- Whether an item is a part of a comparison. -/
def isSign (x : Item) : Bool := x.mark?.any fun c => charClass c = .sign

/-- Whether an item is this keyword. -/
def isKeyword (k : Keyword) (x : Item) : Bool := x.keyword? = some k

/-- Whether an item cuts apart what it stands in. A bar does not: it puts
values together. -/
def separates (x : Item) : Bool :=
  (x.mark?.isSome && x ≠ bar) || x.keyword?.isSome

/-- The value of an item by itself. -/
def datum? (row : List Lexeme → Option Datum) : Item → Option Datum
  | .leaf (.word w) =>
      if (Keyword.ofText? w).isSome then none
      else
        match naturalNumber? w with
        | some n => some (.number n)
        | none => row [.word w]
  | .leaf (.literal s) => some (.text s)
  | .bracket _ _ [.value d] => some d
  | _ => none

end Item

section Values

variable (row : List Lexeme → Option Datum)

/-! ### Operations and chains -/

/-- The value of a call. What is not computed here is worth what `row` says
of the lexemes of the call. -/
def call? (w : String) (ls : List Lexeme) (args : List Argument) :
    Option Datum :=
  if (Keyword.ofText? w).isSome then none
  else
    ((StringFunction.ofText? w).bind fun f => f.result? args) <|>
      row (.word w :: ls)

/-- Where a reader of items stands: before an operand, or behind one. -/
inductive Place where
  | before
  | behind

/-- The operands and operators that items are. Where an operand is to come,
a minus belongs to the word behind it, and a word before a round bracket is
the name of a function. -/
def parts? : Place → List Item → Option (List (Part Datum))
  | .behind, [] => some []
  | .behind, .leaf (.operator op) :: items =>
      (parts? .before items).map (.operator op :: ·)
  | .before, .leaf (.operator .minus) :: .leaf (.word w) :: items =>
      match Item.datum? row (.leaf (.word w)) with
      | some (.number i) =>
          (parts? .behind items).map (.operand (.number (-i)) :: ·)
      | _ => none
  | .before, .leaf (.word w) :: .bracket .round ls args :: items => do
      let d ← call? row w ls args
      let ps ← parts? .behind items
      return .operand d :: ps
  | .before, x :: items => do
      let d ← x.datum? row
      let ps ← parts? .behind items
      return .operand d :: ps
  | _, _ => none

/-- The value of items without bars. -/
def sum? (items : List Item) : Option Datum := do
  let ps ← parts? row .before items
  let tree ← Arithmetic.parse? ps
  arithmeticDatum? tree

/-- The value of a chain that was cut at each bar, so that there is nothing
between the two bars of `||`. -/
def chain? : List (List Item) → Option Datum
  | [items] => sum? row items
  | items :: [] :: rest => do
      concatDatum? (← sum? row items) (← chain? rest)
  | _ => none

/-- The value of items. -/
def value? (items : List Item) : Option Datum :=
  chain? row (items.splitOn .bar)

/-! ### Arguments and branches -/

/-- What items are as an argument. -/
def argument (items : List Item) : Argument :=
  match items.splitOnP (Item.isKeyword .AS) with
  | [e] => .ofDatum? (value? row e)
  | [e, [.leaf (.word type)]] =>
      match value? row e with
      | some d => .typed d type
      | none => .unknown
  | _ => .unknown

/-- The arguments that are separated by commas. -/
def arguments (items : List Item) : List Argument :=
  (items.splitOn .comma).map (argument row)

/-- Whether a comparison holds. -/
def holds? (items : List Item) : Option Bool := do
  let left := items.takeWhile fun x => !x.isSign
  let rest := items.dropWhile fun x => !x.isSign
  let test ← Scalar.comparison? ((rest.takeWhile Item.isSign).filterMap
    Item.mark?)
  holdsDatum? test (← value? row left)
    (← value? row (rest.dropWhile Item.isSign))

/-- The value of the first branch of which the comparison holds, or else
that of the rest. The values of others are not asked for. -/
def choose? : List (List Item) → List Item → Option Datum
  | [], other => value? row other
  | branch :: branches, other =>
      match branch.splitOnP (Item.isKeyword .THEN) with
      | [test, result] => do
          if ← holds? row test then value? row result
          else choose? branches other
      | _ => none

/-- The value of what stands between `CASE` and `END`. -/
def cases? (items : List Item) : Option Datum :=
  match items.splitOnP (Item.isKeyword .ELSE) with
  | [front, other] =>
      match front.splitOnP (Item.isKeyword .WHEN) with
      | [] :: branches => choose? row branches other
      | _ => none
  | _ => none

/-- A bracket as an item. -/
def closed (b : Bracket) (items : List Item) : Item :=
  .bracket b (.opening b :: (items.flatMap Item.lexemes ++ [.closing b]))
    (match b with
    | .round => arguments row items
    | .cases => [.ofDatum? (cases? row items)])

end Values

/-! ### What does not separate -/

section Items

variable {row : List Lexeme → Option Datum} {place : Place} {x : Item}
  {items xs ys : List Item} {ps qs : List (Part Datum)} {d e : Datum}

/-- An item with a value by itself is no mark and no keyword. -/
theorem ordinary_of_datum? (h : x.datum? row = some d) :
    x.mark? = none ∧ x.keyword? = none := by
  cases x with
  | bracket b ls args => exact ⟨rfl, rfl⟩
  | leaf l =>
      cases l with
      | word w =>
          rw [Item.datum?] at h
          split at h
          · cases h
          · next hw => exact ⟨rfl, Option.not_isSome_iff_eq_none.1 hw⟩
      | literal s => exact ⟨rfl, rfl⟩
      | operator op | opening b | closing b | mark c => cases h

/-- What is called is no keyword. -/
theorem keyword_of_call? {w : String} {ls : List Lexeme}
    {args : List Argument} (h : call? row w ls args = some d) :
    Keyword.ofText? w = none := by
  rw [call?] at h
  split at h
  · cases h
  · next hw => exact Option.not_isSome_iff_eq_none.1 hw

/-- There are no marks and no keywords between operands and operators. -/
theorem ordinary_of_parts? (h : parts? row place items = some ps) :
    ∀ x ∈ items, x.mark? = none ∧ x.keyword? = none := by
  fun_induction parts? row place items generalizing ps with
  | case1 => simp
  | case2 op items ih =>
      obtain ⟨qs, hqs, -⟩ := Option.map_eq_some_iff.1 h
      exact List.forall_mem_cons.2 ⟨⟨rfl, rfl⟩, ih hqs⟩
  | case3 w items i hw ih =>
      obtain ⟨qs, hqs, -⟩ := Option.map_eq_some_iff.1 h
      exact List.forall_mem_cons.2 ⟨⟨rfl, rfl⟩, List.forall_mem_cons.2
        ⟨ordinary_of_datum? hw, ih hqs⟩⟩
  | case5 w ls args items ih =>
      obtain ⟨d, hd, h⟩ := Option.bind_eq_some_iff.1 h
      obtain ⟨qs, hqs, -⟩ := Option.bind_eq_some_iff.1 h
      exact List.forall_mem_cons.2 ⟨⟨rfl, keyword_of_call? hd⟩,
        List.forall_mem_cons.2 ⟨⟨rfl, rfl⟩, ih hqs⟩⟩
  | case6 x items _ _ ih =>
      obtain ⟨d, hd, h⟩ := Option.bind_eq_some_iff.1 h
      obtain ⟨qs, hqs, -⟩ := Option.bind_eq_some_iff.1 h
      exact List.forall_mem_cons.2 ⟨ordinary_of_datum? hd, ih hqs⟩
  | case4 | case7 => cases h

/-- Operands and operators go on behind a further operator. -/
theorem parts?_append (h : parts? row place xs = some ps) (op : Operator)
    (hys : parts? row .before ys = some qs) :
    parts? row place (xs ++ .leaf (.operator op) :: ys) =
      some (ps ++ .operator op :: qs) := by
  fun_induction parts? row place xs generalizing ps with
  | case1 =>
      cases h
      rw [List.nil_append, parts?, hys]
      rfl
  | case2 op' items ih =>
      obtain ⟨ps, hps, rfl⟩ := Option.map_eq_some_iff.1 h
      rw [List.cons_append, parts?, ih hps]
      rfl
  | case3 w items i hw ih =>
      obtain ⟨ps, hps, rfl⟩ := Option.map_eq_some_iff.1 h
      simp only [List.cons_append, parts?, hw, ih hps]
      rfl
  | case5 w ls args items ih =>
      obtain ⟨d, hd, h⟩ := Option.bind_eq_some_iff.1 h
      obtain ⟨ps, hps, h⟩ := Option.bind_eq_some_iff.1 h
      cases h
      simp only [List.cons_append, parts?, hd, ih hps]
      rfl
  | case6 x items hsign hcall ih =>
      obtain ⟨d, hd, h⟩ := Option.bind_eq_some_iff.1 h
      obtain ⟨ps, hps, h⟩ := Option.bind_eq_some_iff.1 h
      cases h
      have hread : parts? row .before
          (x :: (items ++ .leaf (.operator op) :: ys)) = (x.datum? row).bind
            fun d => (parts? row .behind
              (items ++ .leaf (.operator op) :: ys)).bind fun ps =>
                some (.operand d :: ps) := by
        -- The operator makes neither a signed word nor a call of the item.
        rw [parts?]
        · rfl
        · intro w rest hx hrest
          cases items with
          | nil => cases hrest
          | cons y items =>
              cases hrest
              exact hsign w _ hx rfl
        · intro w ls args rest hx hrest
          cases items with
          | nil => cases hrest
          | cons y items =>
              cases hrest
              exact hcall w ls args _ hx rfl
      rw [List.cons_append, hread, hd, ih hps]
      rfl
  | case4 | case7 => cases h

theorem not_separates_of_sum? (h : sum? row items = some d) :
    ∀ x ∈ items, x.separates = false := by
  obtain ⟨ps, hps, -⟩ := Option.bind_eq_some_iff.1 h
  intro x hx
  obtain ⟨hmark, hkeyword⟩ := ordinary_of_parts? hps x hx
  simp [Item.separates, hmark, hkeyword]

theorem not_separates_of_chain? {pieces : List (List Item)}
    (h : chain? row pieces = some d) :
    ∀ x ∈ [Item.bar].intercalate pieces, x.separates = false := by
  fun_induction chain? row pieces generalizing d with
  | case1 items => simpa using not_separates_of_sum? h
  | case2 items rest ih =>
      obtain ⟨first, hfirst, h⟩ := Option.bind_eq_some_iff.1 h
      obtain ⟨second, hsecond, h⟩ := Option.bind_eq_some_iff.1 h
      obtain ⟨piece, pieces, rfl⟩ := List.exists_cons_of_ne_nil
        (l := rest) (by rintro rfl; cases hsecond)
      have hbar : ∀ x ∈ [Item.bar], x.separates = false := by decide
      have hrest := ih hsecond
      have hall := List.forall_mem_append.2
        ⟨not_separates_of_sum? hfirst, List.forall_mem_append.2
          ⟨hbar, List.forall_mem_append.2 ⟨hbar, hrest⟩⟩⟩
      simpa [List.intercalate_cons_cons] using hall
  | case3 => cases h

/-- What has a value is not cut apart. -/
theorem not_separates_of_value? (h : value? row items = some d) :
    ∀ x ∈ items, x.separates = false := by
  have hall := not_separates_of_chain? h
  rwa [List.intercalate_splitOn] at hall

/-- One operand has its own value. -/
theorem value?_of_parts? (h : parts? row .before items = some [.operand d]) :
    value? row items = some d := by
  have hbar : Item.bar ∉ items := fun hmem => by
    cases (ordinary_of_parts? h _ hmem).1
  rw [value?, List.splitOn_eq_singleton hbar, chain?, sum?, h]
  rfl

/-- A number is no chain. -/
theorem sum?_of_value? {v : Value}
    (h : value? row items = some (.scalar v)) :
    sum? row items = some (.scalar v) := by
  have hitems : [Item.bar].intercalate (items.splitOn .bar) = items :=
    List.intercalate_splitOn _
  rw [value?] at h
  generalize items.splitOn Item.bar = pieces at h hitems
  unfold chain? at h
  split at h
  · next piece =>
      obtain rfl : piece = items := by simpa using hitems
      exact h
  · next piece rest =>
      -- What is put together from strings is a string.
      obtain ⟨first, hfirst, h⟩ := Option.bind_eq_some_iff.1 h
      obtain ⟨second, hsecond, h⟩ := Option.bind_eq_some_iff.1 h
      cases first <;> cases second <;> cases h
  · cases h

/-- An operation on a sum and one operand more. -/
theorem value?_operation {v w r : Value} {op : Operator}
    (hop : op.level = .sum) (hx : value? row xs = some (.scalar v))
    (hy : parts? row .before ys = some [.operand (.scalar w)])
    (h : op.value? v w = some r) :
    value? row (xs ++ .leaf (.operator op) :: ys) = some (.scalar r) := by
  obtain ⟨ps, hps, hx⟩ := Option.bind_eq_some_iff.1 (sum?_of_value? hx)
  obtain ⟨tree, htree, hx⟩ := Option.bind_eq_some_iff.1 hx
  have hparts := parts?_append hps op hy
  have hbar : Item.bar ∉ xs ++ .leaf (.operator op) :: ys := fun hmem => by
    cases (ordinary_of_parts? hparts _ hmem).1
  have hderives : Arithmetic.Derives .sum
      (ps ++ .operator op :: [.operand (.scalar w)])
      (.operation op tree (.operand (.scalar w))) :=
    .operation hop (Arithmetic.parse?_eq_some_iff.1 htree)
      (.ofPrimary (.operand _))
  rw [value?, List.splitOn_eq_singleton hbar, chain?, sum?, hparts,
    Option.bind_eq_bind, Option.bind_some,
    Arithmetic.parse?_eq_some_iff.2 hderives]
  simp [arithmeticDatum?, hx, operationDatum?, h]

/-- A chain goes on behind two bars. -/
theorem chain?_append {pieces rest : List (List Item)} {s t : String}
    (h : chain? row pieces = some (.text s))
    (hrest : chain? row rest = some (.text t)) :
    chain? row (pieces ++ [] :: rest) = some (.text (s ++ t)) := by
  fun_induction chain? row pieces generalizing s with
  | case1 items =>
      rw [List.singleton_append, chain?, h, hrest]
      rfl
  | case2 items more ih =>
      obtain ⟨first, hfirst, h⟩ := Option.bind_eq_some_iff.1 h
      obtain ⟨second, hsecond, h⟩ := Option.bind_eq_some_iff.1 h
      cases first with
      | scalar v => cases h
      | text u =>
          cases second with
          | scalar v => cases h
          | text v =>
              cases h
              rw [List.cons_append, List.cons_append, chain?, hfirst,
                ih hsecond]
              simp [concatDatum?, String.append_assoc]
  | case3 => cases h

/-- Two strings with bars between them. -/
theorem value?_concat {s t : String} (hx : value? row xs = some (.text s))
    (hy : value? row ys = some (.text t)) :
    value? row (xs ++ .bar :: .bar :: ys) = some (.text (s ++ t)) := by
  have hsplit : (xs ++ .bar :: .bar :: ys).splitOn .bar =
      xs.splitOn .bar ++ [] :: ys.splitOn .bar := by
    rw [List.splitOn_append_cons_self]
    simp [List.splitOn_cons_eq_if_modifyHead]
  rw [value?, hsplit]
  exact chain?_append hx hy

/-- The signs that a comparison is written with. -/
def signs (test : Comparison) : List Item :=
  test.symbol.toList.map fun c => .leaf (.mark c)

theorem separates_of_isSign (h : x.isSign = true) : x.separates = true := by
  obtain ⟨c, hc, hsign⟩ := (Option.any_eq_true _ _).1 h
  have hbar : x ≠ .bar := by
    rintro rfl
    cases hc
    exact absurd hsign (by decide)
  simp [Item.separates, hc, hbar]

/-- What is compared is what stands on either side of the signs. -/
theorem holds?_signs {test : Comparison} (htest : test ≠ .like)
    (hx : value? row xs = some d) (hy : value? row ys = some e) :
    holds? row (xs ++ (signs test ++ ys)) = holdsDatum? test d e := by
  -- No sign stands outside of brackets in what has a value, so the signs are
  -- found where the test is.
  have hnone : ∀ {items : List Item} {d : Datum},
      value? row items = some d → ∀ x ∈ items, x.isSign = false :=
    fun h x hx => Bool.eq_false_iff.2 fun hsign =>
      absurd (separates_of_isSign hsign)
        (Bool.eq_false_iff.1 (not_separates_of_value? h x hx))
  have hsigns : (∀ x ∈ signs test, x.isSign = true) ∧
      (signs test).head?.any Item.isSign = true ∧
      Scalar.comparison? ((signs test).filterMap Item.mark?) =
        some test := by
    cases test with
    | like => exact absurd rfl htest
    | _ => decide
  obtain ⟨hall, hhead, hread⟩ := hsigns
  have hleft : ∀ x ∈ xs, (!x.isSign) = true := by simpa using hnone hx
  have htake : (signs test ++ ys).takeWhile (fun x => !x.isSign) = [] ∧
      (signs test ++ ys).dropWhile (fun x => !x.isSign) =
        signs test ++ ys := by
    cases hcons : signs test with
    | nil => simp [hcons] at hhead
    | cons z zs =>
        have hz : z.isSign = true := by simpa [hcons] using hhead
        simp [hz]
  have hright : ys.takeWhile Item.isSign = [] ∧
      ys.dropWhile Item.isSign = ys := by
    cases ys with
    | nil => exact ⟨rfl, rfl⟩
    | cons y ys => simp [hnone hy y List.mem_cons_self]
  simp only [holds?, List.takeWhile_append_of_pos hleft,
    List.dropWhile_append_of_pos hleft, htake.1, htake.2, List.append_nil,
    List.takeWhile_append_of_pos hall, List.dropWhile_append_of_pos hall,
    hright.1, hright.2, hread, hx, hy]
  rfl

/-- There is no keyword in what is not cut apart. -/
theorem not_isKeyword (k : Keyword)
    (h : ∀ x ∈ items, x.separates = false) :
    ∀ x ∈ items, x.isKeyword k = false := by
  intro x hx
  have hkeyword := (Bool.or_eq_false_iff.1 (h x hx)).2
  rw [Option.isSome_eq_false_iff, Option.isNone_iff_eq_none] at hkeyword
  simp [Item.isKeyword, hkeyword]

/-- The choice between two values. -/
theorem cases?_choice {test : Comparison} (htest : test ≠ .like)
    {yes no : List Item} {c : Bool}
    (hx : value? row xs = some d) (hy : value? row ys = some e)
    (hc : holdsDatum? test d e = some c)
    (hyes : ∀ x ∈ yes, x.separates = false)
    (hno : ∀ x ∈ no, x.separates = false) :
    cases? row (.leaf (.word "WHEN") :: (xs ++ (signs test ++ (ys ++
        .leaf (.word "THEN") :: (yes ++ .leaf (.word "ELSE") :: no))))) =
      if c then value? row yes else value? row no := by
  have hcompared : ∀ k, ∀ x ∈ xs ++ (signs test ++ ys),
      x.isKeyword k = false := fun k =>
    List.forall_mem_append.2 ⟨not_isKeyword k (not_separates_of_value? hx),
      List.forall_mem_append.2 ⟨by simp [signs, Item.isKeyword, Item.keyword?],
        not_isKeyword k (not_separates_of_value? hy)⟩⟩
  have hbranch : ∀ k, Item.isKeyword k (.leaf (.word "THEN")) = false →
      ∀ x ∈ xs ++ (signs test ++ ys) ++ .leaf (.word "THEN") :: yes,
        x.isKeyword k = false := fun k hk =>
    List.forall_mem_append.2 ⟨hcompared k, List.forall_mem_cons.2
      ⟨hk, not_isKeyword k hyes⟩⟩
  have hfront : ∀ x ∈ .leaf (.word "WHEN") ::
      (xs ++ (signs test ++ ys) ++ .leaf (.word "THEN") :: yes),
      x.isKeyword .ELSE = false :=
    List.forall_mem_cons.2 ⟨by decide, hbranch .ELSE (by decide)⟩
  have hitems : .leaf (.word "WHEN") :: (xs ++ (signs test ++ (ys ++
        .leaf (.word "THEN") :: (yes ++ .leaf (.word "ELSE") :: no)))) =
      .leaf (.word "WHEN") ::
        (xs ++ (signs test ++ ys) ++ .leaf (.word "THEN") :: yes) ++
        .leaf (.word "ELSE") :: no := by simp
  -- The keywords are looked for in this order, and each is found once.
  rw [hitems, cases?, List.splitOnP_append_cons_of_forall_mem hfront _
    (by decide), List.splitOnP_eq_singleton (not_isKeyword .ELSE hno)]
  have hwhen : Item.isKeyword .WHEN (.leaf (.word "WHEN")) = true := by decide
  simp only [List.splitOnP_cons_eq_if_modifyHead, hwhen, if_true,
    List.splitOnP_eq_singleton (hbranch .WHEN (by decide))]
  rw [choose?, List.splitOnP_append_cons_of_forall_mem (hcompared .THEN) _
    (by decide), List.splitOnP_eq_singleton (not_isKeyword .THEN hyes)]
  simp [holds?_signs htest hx hy, hc, choose?]

/-- What has a value has it as an argument. -/
theorem argument_of_value? (h : value? row items = some d) :
    argument row items = .value d := by
  have hitems := not_isKeyword .AS (not_separates_of_value? h)
  simp [argument, List.splitOnP_eq_singleton hitems, h, Argument.ofDatum?]

/-- A value with a type. -/
theorem argument_typed {type : String} (h : value? row items = some d)
    (htype : Keyword.ofText? type = none) :
    argument row (items ++ [.leaf (.word "AS"), .leaf (.word type)]) =
      .typed d type := by
  have hitems := not_isKeyword .AS (not_separates_of_value? h)
  have hword : Item.isKeyword .AS (.leaf (.word type)) = false := by
    simp [Item.isKeyword, Item.keyword?, htype]
  rw [argument, List.splitOnP_append_cons_of_forall_mem hitems _ (by decide),
    List.splitOnP_eq_singleton (by simpa using hword)]
  simp [h]

/-- There is no comma in what is not cut apart. -/
theorem comma_notMem (h : ∀ x ∈ items, x.separates = false) :
    Item.comma ∉ items :=
  fun hmem => absurd (h _ hmem) (by decide)

/-- One argument before others. -/
theorem arguments_cons (h : value? row xs = some d) (ys : List Item) :
    arguments row (xs ++ .comma :: ys) = .value d :: arguments row ys := by
  rw [arguments, List.splitOn_append_cons_self_of_not_mem
    (comma_notMem (not_separates_of_value? h)), List.map_cons,
    argument_of_value? h]
  rfl

/-- The last argument. -/
theorem arguments_singleton (h : Item.comma ∉ items) :
    arguments row items = [argument row items] := by
  rw [arguments, List.splitOn_eq_singleton h]
  rfl

end Items

end SchemaEvolution.Sql.Strings

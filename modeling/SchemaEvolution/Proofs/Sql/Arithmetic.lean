import SchemaEvolution.Query.Expr

/-!
# `SchemaEvolution.Proofs.Sql.Arithmetic`: what connects numbers

An arithmetic text of SQL is put together from operands by the four
operators and by brackets. `*` and `/` bind more strongly than `+` and
`-`, and operators that bind alike are taken from left to right. The
grammar has one level for each strength of binding: a sum is made of
products with `+` or `-` between them, a product of primaries with `*` or
`/` between them, and a primary is an operand or a sum in brackets.

`parse?` reads such a text from left to right in one pass, in the way in
which `SchemaEvolution.Proofs.Sql.Precedence` reads conditions.

* `parse?_eq_some_iff`: what is read is what the grammar derives.
* `Derives.unique`: no two trees are derived for one text.
* `Derives.exists_splice`: an operator between two texts makes a text,
  whatever it applies to.
* `Derives.split`: an operator that is spliced in between two texts
  applies to the whole of both only where each of them is at the level
  that the grammar has there.
* `outerOperators`: the operators that stand in no bracket.
-/

set_option autoImplicit false

namespace SchemaEvolution

namespace Sql

/-- The levels of the grammar, the strongest binding first. -/
inductive Level where
  | primary
  | product
  | sum
deriving DecidableEq

end Sql

/-- The level of what an operator stands in. It repeats on the left. -/
def Operator.level : Operator → Sql.Level
  | .plus | .minus => .sum
  | .times | .divide => .product

/-- The level of what stands to the right of an operator. -/
def Operator.operandLevel : Operator → Sql.Level
  | .plus | .minus => .product
  | .times | .divide => .primary

/-- Two texts with an operator between them. -/
def Operator.between (op : Operator) (left right : String) : String :=
  left ++ " " ++ op.symbol ++ " " ++ right

namespace Sql

/-- Operations over operands of some kind. -/
inductive Arithmetic (α : Type) where
  | operand (a : α)
  | operation (op : Operator) (left right : Arithmetic α)
deriving DecidableEq

/-- A part of an arithmetic text. -/
inductive Part (α : Type) where
  | operand (a : α)
  | operator (op : Operator)
  | opening
  | closing
deriving DecidableEq

/-- The operand that a part is, if it is one. -/
def Part.operand? {α : Type} : Part α → Option α
  | .operand a => some a
  | _ => none

/-- The operator that a part is, if it is one. -/
def Part.operator? {α : Type} : Part α → Option Operator
  | .operator op => some op
  | _ => none

/-- The operators that stand in no bracket, when so many brackets are open
at the beginning. -/
def outerOperators {α : Type} : Nat → List (Part α) → List Operator
  | _, [] => []
  | 0, .operator op :: ps => op :: outerOperators 0 ps
  | depth + 1, .operator _ :: ps => outerOperators (depth + 1) ps
  | depth, .opening :: ps => outerOperators (depth + 1) ps
  | depth, .closing :: ps => outerOperators (depth - 1) ps
  | depth, .operand _ :: ps => outerOperators depth ps

namespace Arithmetic

variable {α β : Type}

/-- The operands, from left to right. -/
def operands : Arithmetic α → List α
  | .operand a => [a]
  | .operation _ left right => left.operands ++ right.operands

/-- The operations over what `f` makes of the operands, if it makes
something of each. -/
def mapM? (f : α → Option β) : Arithmetic α → Option (Arithmetic β)
  | .operand a => (f a).map .operand
  | .operation op left right => do
      let left ← left.mapM? f
      let right ← right.mapM? f
      return .operation op left right

/-! ### The grammar -/

/-- The parts are derived as operations. -/
inductive Derives : Level → List (Part α) → Arithmetic α → Prop where
  | operand (a : α) : Derives .primary [.operand a] (.operand a)
  | group {ps : List (Part α)} {s : Arithmetic α} :
      Derives .sum ps s → Derives .primary (.opening :: (ps ++ [.closing])) s
  | primary {ps : List (Part α)} {s : Arithmetic α} :
      Derives .primary ps s → Derives .product ps s
  | product {ps : List (Part α)} {s : Arithmetic α} :
      Derives .product ps s → Derives .sum ps s
  | operation {level : Level} {op : Operator} {ps qs : List (Part α)}
      {s t : Arithmetic α} : op.level = level → Derives level ps s →
      Derives op.operandLevel qs t →
      Derives level (ps ++ .operator op :: qs) (.operation op s t)

namespace Derives

variable {level : Level} {op : Operator} {ps qs : List (Part α)}
  {s t : Arithmetic α}

/-- What is derived at any level is a sum. -/
theorem sum (h : Derives level ps s) : Derives .sum ps s := by
  cases level with
  | primary => exact h.primary.product
  | product => exact h.product
  | sum => exact h

/-- A primary is derived at every level. -/
theorem ofPrimary (h : Derives .primary ps s) : Derives level ps s := by
  cases level with
  | primary => exact h
  | product => exact h.primary
  | sum => exact h.primary.product

/-- An operator takes a further operand. -/
theorem join (hs : Derives op.level ps s)
    (ht : Derives op.operandLevel qs t) :
    Derives op.level (ps ++ .operator op :: qs) (.operation op s t) :=
  .operation rfl hs ht

end Derives

/-! ### Reading in one pass -/

/-- Puts what is left of an operator, if there is one, before what is
right of it. -/
def onto : Option (Arithmetic α × Operator) → Arithmetic α → Arithmetic α
  | none, t => t
  | some (s, op), t => .operation op s t

/-- What stands to the left of a primary that is still to come, up to the
bracket that it stands in, with the operator behind it. -/
structure Pending (α : Type) where
  /-- What stands before the last `+` or `-`. -/
  sum : Option (Arithmetic α × Operator) := none
  /-- What stands behind that and before the last `*` or `/`. -/
  product : Option (Arithmetic α × Operator) := none

/-- Where a reader stands within a bracket: before a primary, or behind
one. Behind one, the product that it ends is complete so far. -/
inductive ParseState (α : Type) where
  | before (p : Pending α)
  | behind (sum : Option (Arithmetic α × Operator)) (product : Arithmetic α)

/-- Goes on behind the primary that was to come. -/
def Pending.fill (p : Pending α) (s : Arithmetic α) : ParseState α :=
  .behind p.sum (onto p.product s)

/-- Goes on behind an operator. A `+` or `-` completes all that stands to
its left, a `*` or `/` only the product. -/
def Pending.behind (sum : Option (Arithmetic α × Operator))
    (product : Arithmetic α) : Operator → Pending α
  | .plus => { sum := some (onto sum product, .plus) }
  | .minus => { sum := some (onto sum product, .minus) }
  | .times => { sum := sum, product := some (product, .times) }
  | .divide => { sum := sum, product := some (product, .divide) }

/-- Reads on, with what is pending outside of each bracket that is open,
the innermost first. -/
def parseFrom : List (Part α) → ParseState α → List (Pending α) →
    Option (Arithmetic α)
  | [], .behind s t, [] => some (onto s t)
  | .operand a :: ps, .before p, outer =>
      parseFrom ps (p.fill (.operand a)) outer
  | .opening :: ps, .before p, outer =>
      parseFrom ps (.before {}) (p :: outer)
  | .operator op :: ps, .behind s t, outer =>
      parseFrom ps (.before (.behind s t op)) outer
  | .closing :: ps, .behind s t, p :: outer =>
      parseFrom ps (p.fill (onto s t)) outer
  | _, _, _ => none

/-- The operations that parts are read as. -/
def parse? (ps : List (Part α)) : Option (Arithmetic α) :=
  parseFrom ps (.before {}) []

/-! ### What is derived is read -/

/-- Parts of a level are read as operations, whatever is pending and
whatever follows. -/
def Level.Parses : Level → List (Part α) → Arithmetic α → Prop
  | .primary, ps, s => ∀ (p : Pending α) rest outer,
      parseFrom (ps ++ rest) (.before p) outer =
        parseFrom rest (p.fill s) outer
  | .product, ps, s => ∀ sum rest outer,
      parseFrom (ps ++ rest) (.before ⟨sum, none⟩) outer =
        parseFrom rest (.behind sum s) outer
  | .sum, ps, s => ∃ sum product, onto sum product = s ∧
      ∀ rest outer,
        parseFrom (ps ++ rest) (.before {}) outer =
          parseFrom rest (.behind sum product) outer

/-- What is derived is read, by induction on the derivation. -/
theorem Derives.parses {level : Level} {ps : List (Part α)}
    {s : Arithmetic α} (h : Derives level ps s) :
    Level.Parses level ps s := by
  induction h with
  | operand a => exact fun p rest outer => rfl
  | group _ ih =>
      -- What was pending before the bracket waits until it closes.
      obtain ⟨sum, product, rfl, hread⟩ := ih
      intro p rest outer
      rw [List.cons_append, List.append_assoc, parseFrom, hread]
      rfl
  | primary _ ih => exact fun sum rest outer => ih ⟨sum, none⟩ rest outer
  | product _ ih =>
      exact ⟨none, _, rfl, fun rest outer => ih none rest outer⟩
  | @operation level op ps qs s t hlevel _ _ ihs iht =>
      cases op with
      | plus | minus =>
          -- All that was read so far goes to the left of the operator.
          cases hlevel
          obtain ⟨sum, product, rfl, hread⟩ := ihs
          refine ⟨some (onto sum product, _), _, rfl, fun rest outer => ?_⟩
          rw [List.append_assoc, hread]
          exact iht (some _) rest outer
      | times | divide =>
          cases hlevel
          intro sum rest outer
          rw [List.append_assoc, ihs sum]
          exact iht ⟨sum, some _⟩ rest outer

/-! ### What is read is derived -/

/-- What was read to the left of an operator of a level, with the
operator. -/
inductive Before (level : Level) :
    List (Part α) → Option (Arithmetic α × Operator) → Prop where
  | none : Before level [] none
  | some {op : Operator} {ps : List (Part α)} {s : Arithmetic α} :
      op.level = level → Derives level ps s →
      Before level (ps ++ [.operator op]) (some (s, op))

/-- A product completes what is to its left. -/
theorem Before.ontoSum {ps qs : List (Part α)}
    {left : Option (Arithmetic α × Operator)} {t : Arithmetic α}
    (h : Before .sum ps left) (ht : Derives .product qs t) :
    Derives .sum (ps ++ qs) (onto left t) := by
  cases h with
  | none => exact ht.product
  | @some op ps s hop hleft =>
      have hoperand : Derives op.operandLevel qs t := by
        cases op with
        | plus | minus => exact ht
        | times | divide => cases hop
      simpa [onto] using Derives.operation hop hleft hoperand

/-- A primary completes what is to its left. -/
theorem Before.ontoProduct {ps qs : List (Part α)}
    {left : Option (Arithmetic α × Operator)} {t : Arithmetic α}
    (h : Before .product ps left) (ht : Derives .primary qs t) :
    Derives .product (ps ++ qs) (onto left t) := by
  cases h with
  | none => exact ht.primary
  | @some op ps s hop hleft =>
      simpa [onto] using Derives.operation hop hleft (.ofPrimary ht)

/-- The parts that were read, up to where a reader stands within a
bracket. -/
inductive ParseState.Follows : ParseState α → List (Part α) → Prop where
  | before {ps qs : List (Part α)} {p : Pending α} :
      Before .sum ps p.sum → Before .product qs p.product →
      Follows (.before p) (ps ++ qs)
  | behind {ps qs : List (Part α)} {sum : Option (Arithmetic α × Operator)}
      {product : Arithmetic α} :
      Before .sum ps sum → Derives .product qs product →
      Follows (.behind sum product) (ps ++ qs)

/-- The parts that were read up to the innermost open bracket. -/
inductive OuterFollows : List (Pending α) → List (Part α) → Prop where
  | nil : OuterFollows [] []
  | cons {p : Pending α} {outer : List (Pending α)}
      {ps qs : List (Part α)} :
      OuterFollows outer ps → (ParseState.before p).Follows qs →
      OuterFollows (p :: outer) (ps ++ qs ++ [.opening])

/-- A primary takes a reader from before it to behind it. -/
theorem ParseState.Follows.fill {p : Pending α} {ps qs : List (Part α)}
    {s : Arithmetic α} (hp : (ParseState.before p).Follows ps)
    (hs : Derives .primary qs s) : (p.fill s).Follows (ps ++ qs) := by
  obtain ⟨hsum, hproduct⟩ := hp
  simpa [Pending.fill] using
    ParseState.Follows.behind hsum (hproduct.ontoProduct hs)

/-- An operator takes a reader from behind a primary to before the
next. -/
theorem ParseState.Follows.behind_operator
    {sum : Option (Arithmetic α × Operator)} {product : Arithmetic α}
    {ps : List (Part α)} (h : (ParseState.behind sum product).Follows ps)
    (op : Operator) :
    (ParseState.before (.behind sum product op)).Follows
      (ps ++ [.operator op]) := by
  cases h with
  | @behind ps qs _ _ hsum hproduct =>
      have hall := hsum.ontoSum hproduct
      have goesOn : ∀ {before within : List (Part α)},
          Before .sum before (Pending.behind sum product op).sum →
          Before .product within (Pending.behind sum product op).product →
          before ++ within = ps ++ qs ++ [.operator op] →
          (ParseState.before (.behind sum product op)).Follows
            (ps ++ qs ++ [.operator op]) :=
        fun hbefore hwithin heq => heq ▸ .before hbefore hwithin
      cases op with
      | plus | minus =>
          exact goesOn (.some rfl hall) .none (List.append_nil _)
      | times | divide =>
          exact goesOn hsum (.some rfl hproduct)
            (List.append_assoc _ _ _).symm

/-- What is read to the end is derived, together with what was read
before. -/
theorem derives_of_parseFrom {ps : List (Part α)} {state : ParseState α}
    {outer : List (Pending α)} {s : Arithmetic α}
    (h : parseFrom ps state outer = some s) {before within : List (Part α)}
    (houter : OuterFollows outer before) (hstate : state.Follows within) :
    Derives .sum (before ++ within ++ ps) s := by
  -- Each step moves the part that it reads to the end of what was read
  -- within the bracket, and the relation to the state is kept.
  fun_induction parseFrom ps state outer generalizing before within with
  | case1 sum product =>
      cases h
      cases houter
      cases hstate with
      | behind hsum hproduct => simpa using hsum.ontoSum hproduct
  | case2 a ps p outer ih =>
      simpa using ih h houter (hstate.fill (.operand a))
  | case3 ps p outer ih =>
      simpa using ih h (houter.cons hstate) (.before .none .none)
  | case4 op ps sum product outer ih =>
      simpa using ih h houter (hstate.behind_operator op)
  | case5 ps sum product p outer ih =>
      -- The bracket that closes is a primary of the one around it.
      cases houter with
      | cons houter hp =>
          cases hstate with
          | behind hsum hproduct =>
              simpa using
                ih h houter (hp.fill (.group (hsum.ontoSum hproduct)))
  | case6 => cases h

/-- What is read is what the grammar derives. -/
theorem parse?_eq_some_iff {ps : List (Part α)} {s : Arithmetic α} :
    parse? ps = some s ↔ Derives .sum ps s := by
  constructor
  · intro h
    simpa using derives_of_parseFrom h .nil (.before .none .none)
  · intro h
    obtain ⟨sum, product, rfl, hread⟩ := h.parses
    have hall := hread [] []
    rw [List.append_nil] at hall
    exact hall

/-- No two trees are derived for one text. -/
theorem Derives.unique {ps : List (Part α)} {s t : Arithmetic α}
    (hs : Derives .sum ps s) (ht : Derives .sum ps t) : s = t :=
  Option.some.inj
    ((parse?_eq_some_iff.2 hs).symm.trans (parse?_eq_some_iff.2 ht))

example : parse? [.operand 'a', .operator .minus, .operand 'b',
      .operator .times, .operand 'c', .operator .plus, .operand 'd'] =
    some (.operation .plus (.operation .minus (.operand 'a')
      (.operation .times (.operand 'b') (.operand 'c'))) (.operand 'd')) := by
  decide

/-! ### Operators that are spliced in -/

section Splices

variable {level level' : Level} {op : Operator} {ps qs : List (Part α)}
  {s t : Arithmetic α}

/-- Behind a sum, an operator takes as much of it as the operator binds. -/
theorem Derives.exists_operand (hs : Derives .sum ps s)
    (ht : Derives op.operandLevel qs t) :
    ∃ r, Derives .sum (ps ++ .operator op :: qs) r := by
  cases hop : op.level with
  | sum => exact ⟨_, (Derives.operation hop hs ht)⟩
  | primary => cases op <;> cases hop
  | product =>
      cases hs with
      | product hs => exact ⟨_, (Derives.operation hop hs ht).product⟩
      | @operation _ op' front back s s' hop' hfront hback =>
          -- The last product of the sum goes on.
          have hproduct : op'.operandLevel = .product := by
            cases op' with
            | plus | minus => rfl
            | times | divide => cases hop'
          rw [hproduct] at hback
          have hlast := Derives.operation hop hback ht
          rw [← hproduct] at hlast
          exact ⟨_, by simpa using Derives.operation hop' hfront hlast⟩

/-- An operator between two texts makes a text, whatever it applies to. -/
theorem Derives.exists_splice (hs : Derives level ps s)
    (ht : Derives level' qs t) (op : Operator) :
    ∃ r, Derives .sum (ps ++ .operator op :: qs) r := by
  -- The parts to the right are taken up one by one.
  induction ht generalizing op with
  | operand a => exact hs.sum.exists_operand (.ofPrimary (.operand a))
  | group h _ => exact hs.sum.exists_operand (.ofPrimary (.group h))
  | primary _ ih | product _ ih => exact ih op
  | operation _ _ hright ihleft _ =>
      obtain ⟨r, hr⟩ := ihleft op
      simpa using hr.exists_operand hright

end Splices

section Counts

variable {level : Level} {ps qs : List (Part α)} {s t : Arithmetic α}

/-- No operand is lost. -/
theorem Derives.operands_eq (h : Derives level ps s) :
    ps.filterMap Part.operand? = s.operands := by
  induction h with
  | operand a => rfl
  | group _ ih => simpa [List.filterMap_cons, Part.operand?] using ih
  | primary _ ih | product _ ih => exact ih
  | operation _ _ _ ihs iht =>
      simp [List.filterMap_cons, Part.operand?, operands, ihs, iht]

/-- There is one operand more than there are operators. -/
theorem Derives.count (h : Derives level ps s) :
    (ps.filterMap Part.operand?).length =
      (ps.filterMap Part.operator?).length + 1 := by
  induction h with
  | operand a => rfl
  | group _ ih =>
      simpa [List.filterMap_cons, Part.operand?, Part.operator?] using ih
  | primary _ ih | product _ ih => exact ih
  | operation _ _ _ ihs iht =>
      simp only [List.filterMap_append, List.filterMap_cons, Part.operand?,
        Part.operator?, List.length_append, List.length_cons]
      omega

/-- The level has room for the operator outside of brackets. -/
def Level.Admits : Level → Operator → Prop
  | .primary, _ => False
  | .product, op => op.level = .product
  | .sum, _ => True

/-- What is derived closes all brackets that it opens, so that nothing in
it counts as being outside of brackets that are open around it. -/
theorem Derives.outerOperators_within (h : Derives level ps s)
    (depth : Nat) (rest : List (Part α)) :
    outerOperators (depth + 1) (ps ++ rest) =
      outerOperators (depth + 1) rest := by
  induction h generalizing depth rest with
  | operand a => rfl
  | group _ ih =>
      rw [List.cons_append, List.append_assoc, outerOperators, ih]
      rfl
  | primary _ ih | product _ ih => exact ih depth rest
  | operation _ _ _ ihs iht =>
      rw [List.append_assoc, List.cons_append, ihs, outerOperators, iht]

theorem outerOperators_group (h : Derives level ps s)
    (rest : List (Part α)) :
    outerOperators 0 (.opening :: (ps ++ [.closing]) ++ rest) =
      outerOperators 0 rest := by
  rw [List.cons_append, List.append_assoc, outerOperators,
    h.outerOperators_within]
  rfl

/-- Outside of brackets, what is derived is read before any rest. -/
theorem Derives.outerOperators_append (h : Derives level ps s)
    (rest : List (Part α)) :
    outerOperators 0 (ps ++ rest) =
      outerOperators 0 ps ++ outerOperators 0 rest := by
  induction h generalizing rest with
  | operand a => rfl
  | group h _ =>
      have hempty := outerOperators_group h []
      rw [List.append_nil] at hempty
      rw [outerOperators_group h, hempty]
      rfl
  | primary _ ih | product _ ih => exact ih rest
  | operation _ _ _ ihs iht =>
      rw [List.append_assoc, List.cons_append, ihs, ihs, outerOperators,
        iht, outerOperators, List.append_assoc, List.cons_append]

/-- The only operators outside of brackets are those of the level. -/
theorem Derives.admits (h : Derives level ps s) :
    ∀ op ∈ outerOperators 0 ps, Level.Admits level op := by
  induction h with
  | operand a => simp [outerOperators]
  | group h _ =>
      have hempty := outerOperators_group h []
      rw [List.append_nil] at hempty
      rw [hempty]
      simp [outerOperators]
  | primary _ ih => exact fun op hop => (ih op hop).elim
  | product _ _ => exact fun _ _ => trivial
  | @operation level op ps qs s t hlevel hs _ ihs iht =>
      rw [hs.outerOperators_append, outerOperators]
      intro o ho
      -- An operand to the right has no operators that its level has not.
      rcases List.mem_append.1 ho with ho | ho
      · exact ihs o ho
      · subst hlevel
        rcases List.mem_cons.1 ho with rfl | ho
        · cases o <;> trivial
        · have hadmits := iht o ho
          cases op with
          | plus | minus => trivial
          | times | divide => exact hadmits.elim

/-- There is an operator outside of brackets where one is spliced in. -/
theorem Derives.mem_outerOperators (h : Derives level ps s) (op : Operator)
    (qs : List (Part α)) :
    op ∈ outerOperators 0 (ps ++ .operator op :: qs) := by
  rw [h.outerOperators_append]
  simp [outerOperators]

/-- An operation is written with its operator between its operands, unless
it stands in brackets. -/
theorem Derives.operation_cases {op : Operator}
    (h : Derives level ps (.operation op s t)) :
    (∃ front back, ps = front ++ .operator op :: back ∧
      Derives op.level front s ∧ Derives op.operandLevel back t) ∨
      outerOperators 0 ps = [] := by
  generalize htree : Arithmetic.operation op s t = tree at h
  induction h with
  | operand a => cases htree
  | group h =>
      refine .inr (List.eq_nil_iff_forall_not_mem.2 fun op hop => ?_)
      exact h.group.admits op hop
  | primary _ ih | product _ ih => exact ih htree
  | operation hlevel hs ht =>
      cases htree
      subst hlevel
      exact .inl ⟨_, _, rfl, hs, ht⟩

/-- Parts that are derived are not the beginning of parts that are derived
with as many operands and go on with an operator. -/
theorem Derives.eq_of_append {op op' : Operator} {level' : Level}
    {ps' qs' : List (Part α)} {s' : Arithmetic α}
    (h : Derives level ps s) (h' : Derives level' ps' s')
    (hoperands : s.operands.length = s'.operands.length)
    (heq : ps ++ .operator op :: qs = ps' ++ .operator op' :: qs') :
    ps = ps' := by
  have hcount := h.count
  have hcount' := h'.count
  rw [h.operands_eq] at hcount
  rw [h'.operands_eq] at hcount'
  -- Whichever is longer has an operator more, and so an operand more.
  rcases List.append_eq_append_iff.1 heq with
    ⟨more, rfl, hmore⟩ | ⟨more, rfl, hmore⟩
  · cases more with
    | nil => exact (List.append_nil _).symm
    | cons p more =>
        cases hmore
        simp [Part.operator?] at hcount'
        omega
  · cases more with
    | nil => exact List.append_nil _
    | cons p more =>
        cases hmore
        simp [Part.operator?] at hcount
        omega

/-- An operator that is spliced in between two texts applies to the whole
of the first one only where that is at the level of the operator, and to
the whole of the second one only where that is at the level of operands to
the right of it. -/
theorem Derives.split {op : Operator} (hs : Derives level ps s)
    (h : Derives .sum (ps ++ .operator op :: qs) (.operation op s t)) :
    Derives op.level ps s ∧ Derives op.operandLevel qs t := by
  rcases h.operation_cases with ⟨front, back, heq, hfront, hback⟩ | houter
  · obtain rfl := hs.eq_of_append hfront rfl heq
    obtain rfl : qs = back := by simpa using heq
    exact ⟨hfront, hback⟩
  · have hmem := hs.mem_outerOperators op qs
    rw [houter] at hmem
    cases hmem

end Counts

end Arithmetic

end Sql

end SchemaEvolution

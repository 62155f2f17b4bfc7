/-!
# `SchemaEvolution.Proofs.Sql.Precedence`: what connects conditions

A condition of SQL is put together from smaller ones by `NOT`, `AND`, `OR`
and brackets, and evaluates to true, false or unknown. The grammar has one
layer for each strength of binding: a condition is made of terms with `OR`
between them, a term of factors with `AND` between them, a factor is a
primary with or without `NOT`, and a primary is an atom or a condition in
brackets.

`parse?` reads such a condition from left to right in one pass. It keeps
what stands to the left of the next primary, and sets that aside when a
bracket opens.

* `parse?_eq_some_iff`: what is read is what the grammar derives.
* `Derives.unique`: no two formulas are derived for one condition.
* `Derives.row`, `Formula.eval_row`: factors in a row, with `AND` or with
  `OR` between them.
-/

set_option autoImplicit false

namespace SchemaEvolution.Sql

/-! ### Three truth values -/

/-- What a condition evaluates to. -/
inductive Truth where
  | true
  | false
  | unknown
deriving DecidableEq

namespace Truth

/-- Something that is not known to be false makes a conjunction unknown
at best. -/
def and : Truth → Truth → Truth
  | .true, t => t
  | .false, _ => .false
  | .unknown, .false => .false
  | .unknown, _ => .unknown

/-- Something that is not known to be true makes a disjunction unknown at
least. -/
def or : Truth → Truth → Truth
  | .false, t => t
  | .true, _ => .true
  | .unknown, .true => .true
  | .unknown, _ => .unknown

/-- What is unknown stays so. -/
def not : Truth → Truth
  | .true => .false
  | .false => .true
  | .unknown => .unknown

/-- Conjunctions may be grouped in any way. -/
theorem and_assoc (s t u : Truth) : (s.and t).and u = s.and (t.and u) := by
  cases s <;> cases t <;> cases u <;> rfl

/-- So may disjunctions. -/
theorem or_assoc (s t u : Truth) : (s.or t).or u = s.or (t.or u) := by
  cases s <;> cases t <;> cases u <;> rfl

end Truth

/-! ### Formulas -/

/-- A condition over atoms of some kind. -/
inductive Formula (α : Type) where
  | atom (a : α)
  | not (f : Formula α)
  | and (f g : Formula α)
  | or (f g : Formula α)
deriving DecidableEq

namespace Formula

variable {α β : Type}

/-- The value of a formula under values of its atoms. -/
def eval (v : α → Truth) : Formula α → Truth
  | .atom a => v a
  | .not f => (f.eval v).not
  | .and f g => (f.eval v).and (g.eval v)
  | .or f g => (f.eval v).or (g.eval v)

/-- The atoms of a formula, from left to right. -/
def atoms : Formula α → List α
  | .atom a => [a]
  | .not f => f.atoms
  | .and f g => f.atoms ++ g.atoms
  | .or f g => f.atoms ++ g.atoms

/-- The formula over other atoms. -/
def map (h : α → β) : Formula α → Formula β
  | .atom a => .atom (h a)
  | .not f => .not (f.map h)
  | .and f g => .and (f.map h) (g.map h)
  | .or f g => .or (f.map h) (g.map h)

end Formula

/-! ### Formulas in a row -/

/-- What stands between formulas in a row. -/
inductive Connective where
  | and
  | or
deriving DecidableEq

namespace Connective

variable {α : Type}

/-- What a connective makes of two formulas. -/
def join : Connective → Formula α → Formula α → Formula α
  | .and => .and
  | .or => .or

/-- What a connective makes of two values. -/
def value : Connective → Truth → Truth → Truth
  | .and => Truth.and
  | .or => Truth.or

/-- The value that changes no other one. -/
def neutral : Connective → Truth
  | .and => .true
  | .or => .false

/-- Either connective may be grouped in any way, which lets a row of
conditions be read from the left. -/
theorem value_assoc (k : Connective) (s t u : Truth) :
    k.value (k.value s t) u = k.value s (k.value t u) := by
  cases k with
  | and => exact Truth.and_assoc s t u
  | or => exact Truth.or_assoc s t u

/-- The neutral value on the right changes nothing. -/
@[simp]
theorem value_neutral (k : Connective) (t : Truth) :
    k.value t k.neutral = t := by
  cases k <;> cases t <;> rfl

/-- Nor does it on the left. -/
@[simp]
theorem neutral_value (k : Connective) (t : Truth) :
    k.value k.neutral t = t := by
  cases k <;> rfl

end Connective

namespace Formula

variable {α β ι : Type}

/-- A formula and further ones behind it. -/
def row (k : Connective) (f : Formula α) (formula : ι → Formula α)
    (parts : List ι) : Formula α :=
  parts.foldl (fun g p => k.join g (formula p)) f

variable (k : Connective) (f : Formula α) (formula : ι → Formula α)
  (parts : List ι)

/-- A row of formulas is renamed in each of its parts. -/
theorem map_row (h : α → β) :
    (row k f formula parts).map h =
      row k (f.map h) (fun p => (formula p).map h) parts := by
  induction parts generalizing f with
  | nil => rfl
  | cons p rest ih =>
      rw [row, List.foldl_cons]
      refine (ih (k.join f (formula p))).trans ?_
      cases k <;> rfl

/-- The atoms of a row are those of its parts, from left to right. -/
theorem atoms_row :
    (row k f formula parts).atoms =
      f.atoms ++ parts.flatMap fun p => (formula p).atoms := by
  induction parts generalizing f with
  | nil => simp [row]
  | cons p rest ih =>
      have hjoin : (k.join f (formula p)).atoms =
          f.atoms ++ (formula p).atoms := by
        cases k <;> rfl
      rw [row, List.foldl_cons]
      refine (ih (k.join f (formula p))).trans ?_
      rw [hjoin, List.flatMap_cons, List.append_assoc]

/-- The value of a row, taken from its other end. -/
theorem eval_row (v : α → Truth) :
    (row k f formula parts).eval v = k.value (f.eval v)
      (parts.foldr (fun p t => k.value ((formula p).eval v) t)
        k.neutral) := by
  induction parts generalizing f with
  | nil => simp [row]
  | cons p rest ih =>
      have hjoin : (k.join f (formula p)).eval v =
          k.value (f.eval v) ((formula p).eval v) := by
        cases k <;> rfl
      rw [row, List.foldl_cons]
      refine (ih (k.join f (formula p))).trans ?_
      rw [hjoin, k.value_assoc, List.foldr_cons]

end Formula

/-! ### The grammar -/

/-- A part of a condition. -/
inductive Item (α : Type) where
  | atom (a : α)
  | and
  | or
  | not
  | opening
  | closing
deriving DecidableEq

/-- The layers of the grammar, the strongest binding first. -/
inductive Layer where
  | primary
  | factor
  | term
  | condition

section Grammar

variable {α : Type}

/-- The parts are derived as a formula. -/
inductive Derives : Layer → List (Item α) → Formula α → Prop where
  | atom (a : α) : Derives .primary [.atom a] (.atom a)
  | group {items : List (Item α)} {f : Formula α} :
      Derives .condition items f →
      Derives .primary (.opening :: (items ++ [.closing])) f
  | primary {items : List (Item α)} {f : Formula α} :
      Derives .primary items f → Derives .factor items f
  | not {items : List (Item α)} {f : Formula α} :
      Derives .primary items f → Derives .factor (.not :: items) (.not f)
  | factor {items : List (Item α)} {f : Formula α} :
      Derives .factor items f → Derives .term items f
  | and {items others : List (Item α)} {f g : Formula α} :
      Derives .term items f → Derives .factor others g →
      Derives .term (items ++ .and :: others) (.and f g)
  | term {items : List (Item α)} {f : Formula α} :
      Derives .term items f → Derives .condition items f
  | or {items others : List (Item α)} {f g : Formula α} :
      Derives .condition items f → Derives .term others g →
      Derives .condition (items ++ .or :: others) (.or f g)

namespace Connective

/-- The part that a connective is. -/
def item : Connective → Item α
  | .and => .and
  | .or => .or

/-- The layer of what a connective stands in. It repeats on the left. -/
def layer : Connective → Layer
  | .and => .term
  | .or => .condition

/-- The layer of what stands to the right of a connective, or alone. -/
def operandLayer : Connective → Layer
  | .and => .factor
  | .or => .term

end Connective

namespace Derives

variable {k : Connective} {items others : List (Item α)} {f g : Formula α}

/-- An operand of a connective can stand alone. -/
theorem single (h : Derives k.operandLayer items f) :
    Derives k.layer items f := by
  cases k with
  | and => exact h.factor
  | or => exact h.term

/-- A connective takes a further operand. -/
theorem join (hf : Derives k.layer items f)
    (hg : Derives k.operandLayer others g) :
    Derives k.layer (items ++ k.item :: others) (k.join f g) := by
  cases k with
  | and => exact hf.and hg
  | or => exact hf.or hg

/-- Factors with a connective between them are a condition. -/
theorem row {ι : Type} {parts : List ι} {itemsOf : ι → List (Item α)}
    {formula : ι → Formula α} (h : Derives .factor items f)
    (hparts : ∀ p ∈ parts, Derives .factor (itemsOf p) (formula p)) :
    Derives .condition (items ++ parts.flatMap fun p => k.item :: itemsOf p)
      (.row k f formula parts) := by
  have operand : ∀ {xs : List (Item α)} {e : Formula α},
      Derives .factor xs e → Derives k.operandLayer xs e := by
    intro xs e hfactor
    cases k with
    | and => exact hfactor
    | or => exact hfactor.factor
  have hrow : Derives k.layer
      (items ++ parts.flatMap fun p => k.item :: itemsOf p)
      (.row k f formula parts) := by
    -- The row grows to the left, so the induction is over what follows
    -- it, for whatever has been put together before.
    replace h := (operand h).single
    induction parts generalizing items f with
    | nil => simpa [Formula.row] using h
    | cons p rest ih =>
        obtain ⟨hp, hrest⟩ := List.forall_mem_cons.1 hparts
        simpa [Formula.row] using ih hrest (h.join (operand hp))
  cases k with
  | and => exact hrow.term
  | or => exact hrow

end Derives

/-! ### Reading in one pass -/

/-- Puts what is left of a connective, if there is one, before what is
right of it. -/
def Connective.onto (k : Connective) :
    Option (Formula α) → Formula α → Formula α
  | none, f => f
  | some g, f => k.join g f

/-- What stands to the left of a primary that is still to come, up to the
bracket that it stands in. -/
structure Pending (α : Type) where
  /-- What stands before the last `OR`. -/
  disjunction : Option (Formula α) := none
  /-- What stands behind that and before the last `AND`. -/
  conjunction : Option (Formula α) := none
  /-- Whether a `NOT` comes next. -/
  negated : Bool := false

/-- Where a reader stands within a bracket: before a primary, or behind
one. Behind one, the term that it ends is complete so far. -/
inductive ParseState (α : Type) where
  | before (p : Pending α)
  | behind (disjunction : Option (Formula α)) (term : Formula α)

/-- Goes on behind the primary that was to come. -/
def Pending.fill (p : Pending α) (f : Formula α) : ParseState α :=
  .behind p.disjunction
    (Connective.and.onto p.conjunction (if p.negated then .not f else f))

/-- Reads on, with what is pending outside of each bracket that is open,
the innermost first. -/
def parseFrom :
    List (Item α) → ParseState α → List (Pending α) → Option (Formula α)
  | [], .behind d t, [] => some (Connective.or.onto d t)
  | .atom a :: items, .before p, outer =>
      parseFrom items (p.fill (.atom a)) outer
  | .not :: items, .before p, outer =>
      if p.negated then none
      else parseFrom items (.before { p with negated := true }) outer
  | .opening :: items, .before p, outer =>
      parseFrom items (.before {}) (p :: outer)
  | .and :: items, .behind d t, outer =>
      parseFrom items (.before { disjunction := d, conjunction := t }) outer
  | .or :: items, .behind d t, outer =>
      parseFrom items (.before { disjunction := Connective.or.onto d t })
        outer
  | .closing :: items, .behind d t, p :: outer =>
      parseFrom items (p.fill (Connective.or.onto d t)) outer
  | _, _, _ => none

/-- The formula that parts are read as. -/
def parse? (items : List (Item α)) : Option (Formula α) :=
  parseFrom items (.before {}) []

/-! ### What is derived is read -/

/-- Parts of a layer are read as a formula, whatever is pending and
whatever follows. -/
def Layer.Parses : Layer → List (Item α) → Formula α → Prop
  | .primary, items, f => ∀ (p : Pending α) rest outer,
      parseFrom (items ++ rest) (.before p) outer =
        parseFrom rest (p.fill f) outer
  | .factor, items, f => ∀ d c rest outer,
      parseFrom (items ++ rest) (.before ⟨d, c, false⟩) outer =
        parseFrom rest (.behind d (Connective.and.onto c f)) outer
  | .term, items, f => ∀ d rest outer,
      parseFrom (items ++ rest) (.before ⟨d, none, false⟩) outer =
        parseFrom rest (.behind d f) outer
  | .condition, items, f => ∃ d t, Connective.or.onto d t = f ∧
      ∀ rest outer,
        parseFrom (items ++ rest) (.before {}) outer =
          parseFrom rest (.behind d t) outer

/-- What is derived is read, by induction on the derivation. -/
theorem Derives.parses {layer : Layer} {items : List (Item α)}
    {f : Formula α} (h : Derives layer items f) : layer.Parses items f := by
  induction h with
  | atom a => exact fun p rest outer => rfl
  | group _ ih =>
      -- What was pending before the bracket waits until it closes.
      obtain ⟨d, t, rfl, hread⟩ := ih
      intro p rest outer
      rw [List.cons_append, List.append_assoc, parseFrom, hread]
      rfl
  | primary _ ih => exact fun d c rest outer => ih ⟨d, c, false⟩ rest outer
  | not _ ih => exact fun d c rest outer => ih ⟨d, c, true⟩ rest outer
  | factor _ ih => exact fun d rest outer => ih d none rest outer
  | and _ _ ihf ihg =>
      intro d rest outer
      rw [List.append_assoc, ihf d]
      exact ihg d (some _) rest outer
  | term _ ih => exact ⟨none, _, rfl, fun rest outer => ih none rest outer⟩
  | or _ _ ihf ihg =>
      -- All that was read so far goes to the left of the `OR`.
      obtain ⟨d, t, rfl, hread⟩ := ihf
      refine ⟨some (Connective.or.onto d t), _, rfl, fun rest outer => ?_⟩
      rw [List.append_assoc, hread]
      exact ihg (some _) rest outer

/-! ### What is read is derived -/

/-- What was read to the left of a connective, with the connective. -/
inductive Before (k : Connective) :
    List (Item α) → Option (Formula α) → Prop where
  | none : Before k [] none
  | some {items : List (Item α)} {f : Formula α} :
      Derives k.layer items f → Before k (items ++ [k.item]) (some f)

/-- An operand completes what is to its left. -/
theorem Before.onto {k : Connective} {xs ys : List (Item α)}
    {left : Option (Formula α)} {f : Formula α} (h : Before k xs left)
    (hf : Derives k.operandLayer ys f) :
    Derives k.layer (xs ++ ys) (k.onto left f) := by
  cases h with
  | none => exact hf.single
  | some hleft => simpa [Connective.onto] using hleft.join hf

/-- The parts that were read, up to where a reader stands within a
bracket. -/
inductive ParseState.Follows : ParseState α → List (Item α) → Prop where
  | before {xs ys : List (Item α)} {p : Pending α} :
      Before .or xs p.disjunction → Before .and ys p.conjunction →
      Follows (.before p) (xs ++ ys ++ if p.negated then [.not] else [])
  | behind {xs ys : List (Item α)} {d : Option (Formula α)}
      {t : Formula α} :
      Before .or xs d → Derives .term ys t → Follows (.behind d t) (xs ++ ys)

/-- The parts that were read up to the innermost open bracket. -/
inductive OuterFollows : List (Pending α) → List (Item α) → Prop where
  | nil : OuterFollows [] []
  | cons {p : Pending α} {outer : List (Pending α)}
      {xs ys : List (Item α)} :
      OuterFollows outer xs → (ParseState.before p).Follows ys →
      OuterFollows (p :: outer) (xs ++ ys ++ [.opening])

/-- A primary takes a reader from before it to behind it. -/
theorem ParseState.Follows.fill {p : Pending α} {xs ys : List (Item α)}
    {f : Formula α} (hp : (ParseState.before p).Follows xs)
    (hf : Derives .primary ys f) : (p.fill f).Follows (xs ++ ys) := by
  obtain ⟨hd, hc⟩ := hp
  have hfactor : Derives .factor
      ((if p.negated then [.not] else []) ++ ys)
      (if p.negated then .not f else f) := by
    cases p.negated with
    | true => exact hf.not
    | false => exact hf.primary
  simpa [Pending.fill] using
    ParseState.Follows.behind hd (hc.onto hfactor)

/-- What is read to the end is derived, together with what was read
before. -/
theorem derives_of_parseFrom {items : List (Item α)}
    {state : ParseState α} {outer : List (Pending α)} {f : Formula α}
    (h : parseFrom items state outer = some f) {xs ys : List (Item α)}
    (houter : OuterFollows outer xs) (hstate : state.Follows ys) :
    Derives .condition (xs ++ ys ++ items) f := by
  -- Each step moves the part that it reads to the end of what was read
  -- within the bracket, and the relation to the state is kept.
  fun_induction parseFrom items state outer generalizing xs ys with
  | case1 d t =>
      cases h
      cases houter
      cases hstate with
      | behind hd ht =>
          have hall := hd.onto ht
          simpa [Connective.layer] using hall
  | case2 a items p outer ih =>
      simpa using ih h houter (hstate.fill (.atom a))
  | case3 => cases h
  | case4 items p outer hnegated ih =>
      have hnot : (ParseState.before { p with negated := true }).Follows
          (ys ++ [.not]) := by
        obtain ⟨hd, hc⟩ := hstate
        simpa [hnegated] using ParseState.Follows.before
          (p := { p with negated := true }) hd hc
      simpa using ih h houter hnot
  | case5 items p outer ih =>
      simpa using ih h (houter.cons hstate) (.before .none .none)
  | case6 items d t outer ih =>
      cases hstate with
      | behind hd ht =>
          have hread := ih h houter (.before hd (.some ht))
          simpa [Connective.item] using hread
  | case7 items d t outer ih =>
      cases hstate with
      | behind hd ht =>
          have hread := ih h houter (.before (.some (hd.onto ht)) .none)
          simpa [Connective.item] using hread
  | case8 items d t p outer ih =>
      -- The bracket that closes is a primary of the one around it.
      cases houter with
      | cons houter hp =>
          cases hstate with
          | behind hd ht =>
              simpa using ih h houter (hp.fill (.group (hd.onto ht)))
  | case9 => cases h

/-- What is read is what the grammar derives. -/
theorem parse?_eq_some_iff {items : List (Item α)} {f : Formula α} :
    parse? items = some f ↔ Derives .condition items f := by
  constructor
  · intro h
    simpa using derives_of_parseFrom h .nil (.before .none .none)
  · intro h
    obtain ⟨d, t, rfl, hread⟩ := h.parses
    have hall := hread [] []
    rw [List.append_nil] at hall
    exact hall

/-- No two formulas are derived for one condition. -/
theorem Derives.unique {items : List (Item α)} {f g : Formula α}
    (hf : Derives .condition items f) (hg : Derives .condition items g) :
    f = g :=
  Option.some.inj
    ((parse?_eq_some_iff.2 hf).symm.trans (parse?_eq_some_iff.2 hg))

end Grammar

end SchemaEvolution.Sql

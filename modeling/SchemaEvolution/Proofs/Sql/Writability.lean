import SchemaEvolution.Proofs.Sql.Portability
import SchemaEvolution.Proofs.Text.Numeral

/-!
# `SchemaEvolution.Proofs.Sql.Writability`: what can be written at all

Whether an expression can be written is a matter of its nodes, each by
itself: how many arguments a call has, how a decimal is spelled, what a
cast is to, and which functions the dialect has. All arguments count, also
where a template would make nothing of one, and no argument is asked for
that is not there.

The second part is stated against a writer that takes the arguments of a
call by their positions, one at a time and only those that the function
has a use for (`Dialect.exprTextAt`). Where a position is missing it fails
in a way of its own, and it never does.

* `isOk_exprText_iff`: in any dialect, an expression can be written when
  all its nodes can.
* `exprTextAt_eq`: in any dialect, arguments taken by position are there.
* `ansi_hasForm`, `nuoDb_hasForm`: templates have a form for as many
  texts as they are given.
* `Expr.written`: what standard SQL and NuoDB can write.
-/

set_option autoImplicit false

namespace SchemaEvolution

open SchemaEvolution.Text

/-! ### Numbers of arguments -/

namespace FunctionKind

/-- The function can be called with `n` arguments. -/
def Takes (kind : FunctionKind) (n : Nat) : Prop :=
  match kind with
  | .count => n ≤ 1
  | .coalesce => 1 ≤ n
  | kind => kind.arity? = some n

/-- The number of arguments is checked against what the function takes. -/
theorem isOk_checkCount_iff {kind : FunctionKind} {n : Nat} :
    (kind.checkCount n).isOk ↔ kind.Takes n := by
  have hcheck : (kind.checkCount n).isOk ↔ n = kind.expectedCount n := by
    unfold checkCount
    split
    · next h => exact iff_of_true rfl h
    · next h => exact iff_of_false Bool.false_ne_true h
  rw [hcheck]
  cases kind with
  | count | coalesce =>
      simp only [expectedCount, arity?, Takes]
      grind
  | _ => simp [expectedCount, arity?, Takes, eq_comm]

/-- The positions, among its `n` arguments, that a call takes texts
from. -/
def positions (kind : FunctionKind) (n : Nat) : List Nat :=
  match kind with
  | .now => []
  | .count => if n = 0 then [] else [0]
  | .sum | .min | .max | .average | .trim | .length | .upper | .lower
  | .floor | .yyyymmddToDate | .dateToYyyymmdd | .dateToYyyymmddHhmmss
  | .leftTrim | .rightTrim | .randomString | .lastDayOfMonth => [0]
  | .daysBetween | .monthsBetween | .addDays | .addMonths => [0, 1]
  | .leftPad => [0, 1, 2]
  | .coalesce | .isNull | .modulo | .round | .substring => List.range n

/-- With as many arguments as it takes, a function uses each once, from
left to right. -/
theorem positions_eq_range {kind : FunctionKind} {n : Nat}
    (h : kind.Takes n) : kind.positions n = List.range n := by
  cases kind with
  | count =>
      have hn : n = 0 ∨ n = 1 := by
        have : n ≤ 1 := h
        omega
      rcases hn with rfl | rfl <;> rfl
  | coalesce | isNull | modulo | round | substring => rfl
  | _ =>
      cases h
      rfl

end FunctionKind

/-! ### Nodes -/

mutual

/-- The nodes of an expression: itself, and the nodes of its parts. -/
def Expr.nodes : Expr → List Expr
  | .field f => [.field f]
  | .literal l => [.literal l]
  | .call kind args => .call kind args :: Expr.nodesList args
  | .cast e type width scale => .cast e type width scale :: e.nodes
  | .arithmetic op left right =>
      .arithmetic op left right :: (left.nodes ++ right.nodes)
  | .concat parts => .concat parts :: Expr.nodesList parts
  | .aliased e name => .aliased e name :: e.nodes

/-- The nodes of expressions. -/
def Expr.nodesList : List Expr → List Expr
  | [] => []
  | e :: rest => e.nodes ++ Expr.nodesList rest

end

/-- What can be asked of an expression before the dialect is known. -/
structure Expr.Sound (e : Expr) : Prop where
  /-- Functions are called with as many arguments as they take. -/
  counts : ∀ kind args, .call kind args ∈ e.nodes → kind.Takes args.length
  /-- Decimals are numerals. -/
  decimals : ∀ text, .literal (.decimal text) ∈ e.nodes →
    Numeral.IsSpelled text
  /-- Nothing is cast to the type of a bare `null`. -/
  casts : ∀ part width scale, .cast part .null width scale ∉ e.nodes

/-- The dialect has what a node needs, apart from the parts of the
node. -/
def Dialect.HasNode (d : Dialect) : Expr → Prop
  | .literal l => (d.literalText l).isOk
  | .call kind args => kind.Takes args.length ∧ (d.call d.name kind).isOk
  | .cast _ type width scale => (d.columnType type width scale).isOk
  | .field _ | .arithmetic _ _ _ | .concat _ | .aliased _ _ => True

namespace Dialect

mutual

/-- An expression can be written when all its nodes can. -/
theorem isOk_exprText_iff (d : Dialect) : ∀ e : Expr,
    (d.exprText e).isOk ↔ ∀ n ∈ e.nodes, d.HasNode n
  | .field _ => by simp [exprText, Expr.nodes, HasNode, isOk_iff]
  | .literal _ => by simp [exprText, Expr.nodes, HasNode]
  | .call kind args => by
      rw [Expr.nodes, List.forall_mem_cons, ← d.isOk_exprTexts_iff args,
        HasNode, ← FunctionKind.isOk_checkCount_iff, and_assoc, exprText]
      -- No step hangs on what the steps before it give.
      exact isOk_bind_iff fun _ => isOk_bind_iff fun _ => isOk_bind_ok
  | .cast e type width scale => by
      rw [Expr.nodes, List.forall_mem_cons, ← d.isOk_exprText_iff e,
        HasNode, and_comm, exprText]
      exact isOk_bind_iff fun _ => isOk_bind_ok
  | .arithmetic _ left right => by
      rw [Expr.nodes, List.forall_mem_cons, List.forall_mem_append,
        ← d.isOk_exprText_iff left, ← d.isOk_exprText_iff right, HasNode,
        true_and, exprText]
      exact isOk_bind_iff fun _ => isOk_bind_ok
  | .concat parts => by
      rw [Expr.nodes, List.forall_mem_cons, ← d.isOk_exprTexts_iff parts,
        HasNode, true_and, exprText]
      exact isOk_bind_ok
  | .aliased e _ => by
      rw [Expr.nodes, List.forall_mem_cons, HasNode, true_and, exprText]
      exact d.isOk_exprText_iff e

/-- Expressions in a row can be written when all their nodes can. -/
theorem isOk_exprTexts_iff (d : Dialect) : ∀ es : List Expr,
    (d.exprTexts es).isOk ↔ ∀ n ∈ Expr.nodesList es, d.HasNode n
  | [] => by simp [exprTexts, Expr.nodesList, isOk_iff]
  | e :: rest => by
      rw [Expr.nodesList, List.forall_mem_append, ← d.isOk_exprText_iff e,
        ← d.isOk_exprTexts_iff rest, exprTexts]
      exact isOk_bind_iff fun _ => isOk_bind_ok

end

end Dialect

/-! ### Arguments by their positions -/

/-- Why a writer that takes arguments by position stops: for an error of
the expression, or because there is no argument at the position. -/
inductive PositionFault where
  | failed (e : RenderError)
  | missing (position count : Nat)
deriving DecidableEq

/-- What comes of the argument at a position. -/
def argumentAt (arguments : List (Except PositionFault String))
    (position : Nat) : Except PositionFault String :=
  arguments[position]?.getD (.error (.missing position arguments.length))

/-- The texts of arguments, up to the first that has none. -/
def inOrder (arguments : List (Except PositionFault String)) :
    Except PositionFault (List String) :=
  arguments.mapM id

namespace Dialect

mutual

/-- An expression, with the arguments of calls taken by position. An
argument at no position that the function asks for is not looked at, and
neither is its error. -/
def exprTextAt (d : Dialect) : Expr → Except PositionFault String
  | .field f => .ok (d.field f)
  | .literal l => (d.literalText l).mapError .failed
  | .call kind args => do
      (kind.checkCount args.length).mapError .failed
      let template ← (d.call d.name kind).mapError .failed
      let texts ← inOrder ((kind.positions args.length).map
        (argumentAt (argumentsAt d args)))
      return template texts
  | .cast e type width scale => do
      let text ← exprTextAt d e
      let typeText ← (d.columnType type width scale).mapError .failed
      return "CAST(" ++ text ++ " AS " ++ typeText ++ ")"
  | .arithmetic op left right => do
      let leftText ← exprTextAt d left
      let rightText ← exprTextAt d right
      return d.arithmetic op ⟨leftText, left.isArithmetic⟩
        ⟨rightText, right.isArithmetic⟩
  | .concat parts => do
      let texts ← inOrder (argumentsAt d parts)
      return d.concat texts
  | .aliased e _ => exprTextAt d e

/-- What would come of each expression, if it were asked for. -/
def argumentsAt (d : Dialect) :
    List Expr → List (Except PositionFault String)
  | [] => []
  | e :: rest => exprTextAt d e :: argumentsAt d rest

end

end Dialect

/-- Taking every argument by its position is taking all of them. -/
theorem map_argumentAt_range
    (arguments : List (Except PositionFault String)) :
    (List.range arguments.length).map (argumentAt arguments) =
      arguments := by
  refine List.ext_getElem (by simp) fun i hi _ => ?_
  have hlength : i < arguments.length := by simpa using hi
  simp [argumentAt, hlength]

namespace Dialect

theorem length_argumentsAt (d : Dialect) (es : List Expr) :
    (d.argumentsAt es).length = es.length := by
  induction es with
  | nil => rfl
  | cons e rest ih => simp [argumentsAt, ih]

mutual

/-- Arguments that are taken by position are there, and none is left
out. -/
theorem exprTextAt_eq (d : Dialect) : ∀ e : Expr,
    d.exprTextAt e = (d.exprText e).mapError .failed
  | .field _ => rfl
  | .literal _ => rfl
  | .call kind args => by
      rw [exprTextAt, exprText, mapError_bind]
      cases hcheck : kind.checkCount args.length with
      | error e => rfl
      | ok u =>
          have htakes : kind.Takes args.length :=
            FunctionKind.isOk_checkCount_iff.1 (isOk_iff.2 ⟨u, hcheck⟩)
          -- The positions are those of all arguments, once their number
          -- is right.
          rw [FunctionKind.positions_eq_range htakes,
            ← d.length_argumentsAt args, map_argumentAt_range,
            d.inOrder_argumentsAt args]
          simp only [mapError_bind]
          rfl
  | .cast e type width scale => by
      rw [exprTextAt, exprText, d.exprTextAt_eq e]
      simp only [mapError_bind]
      rfl
  | .arithmetic _ left right => by
      rw [exprTextAt, exprText, d.exprTextAt_eq left,
        d.exprTextAt_eq right]
      simp only [mapError_bind]
      rfl
  | .concat parts => by
      rw [exprTextAt, exprText, d.inOrder_argumentsAt parts, mapError_bind]
      rfl
  | .aliased e _ => d.exprTextAt_eq e

/-- So it is with expressions in a row. -/
theorem inOrder_argumentsAt (d : Dialect) : ∀ es : List Expr,
    inOrder (d.argumentsAt es) = (d.exprTexts es).mapError .failed
  | [] => rfl
  | e :: rest => by
      have hrest := d.inOrder_argumentsAt rest
      rw [inOrder] at hrest ⊢
      rw [argumentsAt, List.mapM_cons, hrest, exprTexts, id,
        d.exprTextAt_eq e]
      simp only [mapError_bind]
      rfl

end

end Dialect

/-! ### Templates -/

/-- The template has a form for `n` texts. -/
inductive HasForm : (List String → String) → Nat → Prop where
  | constant (text : String) : HasForm (fun _ => text) 0
  | unary (f : String → String) : HasForm (unary f) 1
  | binary (f : String → String → String) : HasForm (binary f) 2
  | ternary (f : String → String → String → String) :
      HasForm (ternary f) 3
  | call (function : String) (n : Nat) : HasForm (callText function) n
  | callOr (text function : String) (n : Nat) :
      HasForm (fun args =>
        if args.isEmpty then text else callText function args) n

/-- In standard SQL, a template has a form for as many texts as its
function takes arguments. -/
theorem ansi_hasForm (dialect : String) {kind : FunctionKind} {n : Nat}
    {template : List String → String} (htakes : kind.Takes n)
    (htemplate : Ansi.call dialect kind = .ok template) :
    HasForm template n := by
  cases kind with
  | randomString => cases htemplate
  | count | coalesce =>
      -- These two are written as lists, whatever their length.
      cases htemplate
      constructor
  | _ =>
      cases htakes
      cases htemplate
      constructor

/-- So it has in NuoDB. -/
theorem nuoDb_hasForm (dialect : String) {kind : FunctionKind} {n : Nat}
    {template : List String → String} (htakes : kind.Takes n)
    (htemplate : NuoDb.call dialect kind = .ok template) :
    HasForm template n := by
  cases kind with
  | now | daysBetween | monthsBetween | addDays | addMonths
  | yyyymmddToDate | dateToYyyymmdd | dateToYyyymmddHhmmss | leftTrim
  | rightTrim | leftPad | randomString | lastDayOfMonth =>
      cases htakes
      cases htemplate
      constructor
  | _ => exact ansi_hasForm dialect htakes htemplate

/-! ### Standard SQL and NuoDB -/

/-- No call asks for an argument that is not there: taken by position the
arguments give the same text or the same error, and no template is left
without a form for the texts that it is given. -/
structure Dialect.InBounds (d : Dialect) (e : Expr) : Prop where
  positions : d.exprTextAt e = (d.exprText e).mapError .failed
  forms : ∀ kind args template, .call kind args ∈ e.nodes →
    kind.checkCount args.length = .ok () →
    d.call d.name kind = .ok template → HasForm template args.length

theorem Dialect.inBounds_ansi (e : Expr) : Dialect.ansi.InBounds e where
  positions := Dialect.ansi.exprTextAt_eq e
  forms _ _ _ _ hcheck htemplate :=
    ansi_hasForm _ (FunctionKind.isOk_checkCount_iff.1
      (isOk_iff.2 ⟨(), hcheck⟩)) htemplate

theorem Dialect.inBounds_nuoDb (e : Expr) : Dialect.nuoDb.InBounds e where
  positions := Dialect.nuoDb.exprTextAt_eq e
  forms _ _ _ _ hcheck htemplate :=
    nuoDb_hasForm _ (FunctionKind.isOk_checkCount_iff.1
      (isOk_iff.2 ⟨(), hcheck⟩)) htemplate

/-- A constant passes the check unless it is a decimal that is no
numeral. -/
theorem Literal.isOk_validate_iff {l : Literal} :
    l.validate.isOk ↔ ∀ text, l = .decimal text → Numeral.IsSpelled text := by
  cases l with
  | decimal text =>
      have hcheck : (Literal.decimal text).validate.isOk ↔
          Numeral.isNumeral text = true := by
        rw [← Literal.validate_decimal_iff, isOk_iff]
        exact ⟨fun ⟨_, h⟩ => h, fun h => ⟨(), h⟩⟩
      rw [hcheck, Numeral.isNumeral_iff]
      simp
  | null | string _ | integer _ | boolean _ | date _ =>
      exact iff_of_true rfl fun _ h => nomatch h

/-- The only type that is no type of a column is that of a bare `null`. -/
theorem Ansi.isOk_columnType_iff {type : DataType} {width scale : UInt32} :
    (Ansi.columnType type width scale).isOk ↔ type ≠ .null := by
  cases type <;> simp [Ansi.columnType, Except.isOk, Except.toBool]

/-- A dialect that has all sound constants and all types of columns can
write a sound expression, as far as it has the functions. -/
theorem Dialect.hasNode_iff {d : Dialect}
    (hliteral : ∀ l, (d.literalText l).isOk = l.validate.isOk)
    (htype : ∀ type width scale,
      (d.columnType type width scale).isOk ↔ type ≠ .null) {e : Expr} :
    (∀ n ∈ e.nodes, d.HasNode n) ↔
      e.Sound ∧ ∀ kind args, .call kind args ∈ e.nodes →
        (d.call d.name kind).isOk := by
  constructor
  · intro h
    refine ⟨⟨fun kind args hmem => (h _ hmem).1, fun text hmem => ?_,
      fun part width scale hmem => ?_⟩, fun kind args hmem => (h _ hmem).2⟩
    · have hok : (d.literalText (.decimal text)).isOk := h _ hmem
      rw [hliteral] at hok
      exact Literal.isOk_validate_iff.1 hok text rfl
    · exact (htype _ _ _).1 (h _ hmem) rfl
  · rintro ⟨hsound, hcalls⟩ n hmem
    -- Only literals, calls and casts ask anything of the dialect.
    cases n with
    | literal l =>
        show (d.literalText l).isOk
        rw [hliteral]
        refine Literal.isOk_validate_iff.2 ?_
        rintro text rfl
        exact hsound.decimals text hmem
    | call kind args =>
        exact ⟨hsound.counts kind args hmem, hcalls kind args hmem⟩
    | cast part type width scale =>
        refine (htype _ _ _).2 ?_
        rintro rfl
        exact hsound.casts part width scale hmem
    | field _ | arithmetic _ _ _ | concat _ | aliased _ _ => trivial

/-- Standard SQL writes the expressions whose calls have the right number
of arguments, whose decimals are numerals, and which are free of casts to
the type of a bare `null` and of random strings. NuoDB writes random
strings as well. Both take no argument that is not there. -/
theorem Expr.written (e : Expr) :
    (Dialect.ansi.InBounds e ∧ Dialect.nuoDb.InBounds e) ∧
    ((Dialect.ansi.exprText e).isOk ↔
      e.Sound ∧ ∀ args, .call .randomString args ∉ e.nodes) ∧
    ((Dialect.nuoDb.exprText e).isOk ↔ e.Sound) := by
  refine ⟨⟨Dialect.inBounds_ansi e, Dialect.inBounds_nuoDb e⟩, ?_, ?_⟩
  · -- Standard SQL refuses one function.
    have hcall : ∀ kind, (Dialect.ansi.call Dialect.ansi.name kind).isOk ↔
        kind ≠ .randomString := by
      intro kind
      cases kind <;> simp [Dialect.ansi, Ansi.call, Except.isOk,
        Except.toBool]
    rw [Dialect.isOk_exprText_iff, Dialect.hasNode_iff isOk_ansi_literalText
      fun _ _ _ => Ansi.isOk_columnType_iff]
    refine and_congr_right fun _ => ⟨fun h args hmem => ?_,
      fun h kind args hmem => ?_⟩
    · exact (hcall _).1 (h _ _ hmem) rfl
    · refine (hcall kind).2 ?_
      rintro rfl
      exact h args hmem
  · -- NuoDB refuses none, so that condition falls away.
    have hcall : ∀ kind,
        (Dialect.nuoDb.call Dialect.nuoDb.name kind).isOk := by
      intro kind
      cases kind <;> rfl
    have htype : ∀ type width scale,
        (Dialect.nuoDb.columnType type width scale).isOk ↔ type ≠ .null := by
      intro type width scale
      rw [isOk_nuoDb_columnType]
      exact Ansi.isOk_columnType_iff
    rw [Dialect.isOk_exprText_iff,
      Dialect.hasNode_iff isOk_nuoDb_literalText htype]
    exact and_iff_left fun kind _ _ => hcall kind

end SchemaEvolution

import SchemaEvolution.Dialect.Basic

/-!
# `SchemaEvolution.Dialect.ExprText`: writing expressions and conditions

An expression is written from the inside out, the parts of a list from
left to right, and the first part that cannot be written decides the
error. A call is checked before its arguments: first their number,
then whether the dialect has the function. Aliases are not written.

* `exprText_unaliased`: the aliases around an expression do not show.
* `exprTexts_eq_mapM`: a list is written part by part.
-/

set_option autoImplicit false

namespace SchemaEvolution

namespace Dialect

/-- A constant. -/
def literalText (d : Dialect) (l : Literal) : Except RenderError String :=
  d.literal d.escape l

mutual

/-- An expression, without its aliases. -/
def exprText (d : Dialect) : Expr → Except RenderError String
  | .field f => .ok (d.field f)
  | .literal l => d.literalText l
  | .call kind args => do
      kind.checkCount args.length
      let template ← d.call d.name kind
      let texts ← exprTexts d args
      return template texts
  | .cast e type width scale => do
      let text ← exprText d e
      let typeText ← d.columnType type width scale
      return "CAST(" ++ text ++ " AS " ++ typeText ++ ")"
  | .arithmetic op left right => do
      let leftText ← exprText d left
      let rightText ← exprText d right
      return d.arithmetic op ⟨leftText, left.isArithmetic⟩
        ⟨rightText, right.isArithmetic⟩
  | .concat parts => do
      let texts ← exprTexts d parts
      return d.concat texts
  | .aliased e _ => exprText d e

/-- The texts of expressions. -/
def exprTexts (d : Dialect) :
    List Expr → Except RenderError (List String)
  | [] => .ok []
  | e :: rest => do
      let text ← exprText d e
      let texts ← exprTexts d rest
      return text :: texts

end

/-- Expressions with commas between them. -/
def exprListText (d : Dialect) (es : List Expr) :
    Except RenderError String := do
  let texts ← d.exprTexts es
  return ", ".intercalate texts

mutual

/-- A condition. Groups stand in brackets. -/
def criterionText (d : Dialect) : Criterion → Except RenderError String
  | .compare op left right => do
      let leftText ← d.exprText left
      let rightText ← d.exprText right
      return leftText ++ " " ++ op.symbol ++ " " ++ rightText ++
        (if op = .like then d.likeSuffix else "")
  | .isNull e => do
      let text ← d.exprText e
      return text ++ " IS NULL"
  | .isNotNull e => do
      let text ← d.exprText e
      return text ++ " IS NOT NULL"
  | .isIn e values => do
      let text ← d.exprText e
      let list ← d.exprListText values
      return text ++ " IN (" ++ list ++ ")"
  | .all criteria => do
      let texts ← criterionTexts d criteria
      return "(" ++ " AND ".intercalate texts ++ ")"
  | .any criteria => do
      let texts ← criterionTexts d criteria
      return "(" ++ " OR ".intercalate texts ++ ")"
  | .not c => do
      let text ← criterionText d c
      return "NOT (" ++ text ++ ")"

/-- The texts of conditions. -/
def criterionTexts (d : Dialect) :
    List Criterion → Except RenderError (List String)
  | [] => .ok []
  | c :: rest => do
      let text ← criterionText d c
      let texts ← criterionTexts d rest
      return text :: texts

end

/-- A key of a sort. -/
def sortKeyText (d : Dialect) (k : SortKey) :
    Except RenderError String := do
  let text ← d.exprText k.expr
  return d.sortKey text k.direction k.nulls

/-- The aliases around an expression do not show. -/
theorem exprText_unaliased (d : Dialect) (e : Expr) :
    d.exprText e.unaliased = d.exprText e := by
  fun_induction Expr.unaliased e with
  | case1 e _ ih => rw [ih, exprText]
  | case2 e h => rfl

/-- A list is written part by part. -/
theorem exprTexts_eq_mapM (d : Dialect) (es : List Expr) :
    d.exprTexts es = es.mapM d.exprText := by
  induction es with
  | nil => rfl
  | cons e rest ih => rw [exprTexts, List.mapM_cons, ih]

end Dialect

end SchemaEvolution

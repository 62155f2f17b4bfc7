import SchemaEvolution.Proofs.Sql.Writability
import SchemaEvolution.Session.StatementText

/-!
# `SchemaEvolution.Proofs.Sql.Aliases`: aliases that do not show

An alias names a field of a query. Anywhere else it may stand, around an
argument, an operand or a part, and any number of them around each other,
and there it does not show: not in the text, not in the brackets around
arithmetic, not in the error when something cannot be written. In a query
the outermost alias of a field is written behind it, and only that one.

Aliases are taken out of an expression at all depths by
`Expr.withoutAliases`. Two things that differ in aliases alone are those
that are the same without them.

* `Expr.no_alias_withoutAliases`: no alias is left.
* `Dialect.exprText_withoutAliases`, `Dialect.criterionText_withoutAliases`:
  aliases do not show, one case for each kind of expression and condition.
* `Session.fieldText_eq`: what is written of the aliases of a field.
* `Session.aliases_unseen`: expressions, conditions, keys of a sort, fields
  and queries that differ in aliases alone are written alike.
-/

set_option autoImplicit false

namespace SchemaEvolution

/-! ### Taking aliases out -/

mutual

/-- The expression without its aliases, at all depths. -/
def Expr.withoutAliases : Expr → Expr
  | .field f => .field f
  | .literal l => .literal l
  | .call kind args => .call kind (Expr.withoutAliasesEach args)
  | .cast e type width scale => .cast e.withoutAliases type width scale
  | .arithmetic op left right =>
      .arithmetic op left.withoutAliases right.withoutAliases
  | .concat parts => .concat (Expr.withoutAliasesEach parts)
  | .aliased e _ => e.withoutAliases

/-- The expressions without their aliases. -/
def Expr.withoutAliasesEach : List Expr → List Expr
  | [] => []
  | e :: rest => e.withoutAliases :: Expr.withoutAliasesEach rest

end

mutual

/-- The condition without the aliases in it. -/
def Criterion.withoutAliases : Criterion → Criterion
  | .compare op left right =>
      .compare op left.withoutAliases right.withoutAliases
  | .isNull e => .isNull e.withoutAliases
  | .isNotNull e => .isNotNull e.withoutAliases
  | .isIn e values => .isIn e.withoutAliases (Expr.withoutAliasesEach values)
  | .all criteria => .all (Criterion.withoutAliasesEach criteria)
  | .any criteria => .any (Criterion.withoutAliasesEach criteria)
  | .not c => .not c.withoutAliases

/-- The conditions without the aliases in them. -/
def Criterion.withoutAliasesEach : List Criterion → List Criterion
  | [] => []
  | c :: rest => c.withoutAliases :: Criterion.withoutAliasesEach rest

end

/-- The key of a sort without the aliases in it. -/
def SortKey.withoutAliases (k : SortKey) : SortKey :=
  { k with expr := k.expr.withoutAliases }

namespace Expr

/-- The outermost alias of an expression. -/
def alias? : Expr → Option String
  | .aliased _ name => some name
  | _ => none

/-- The expression with its outermost alias and no other. -/
def withOutermostAlias (e : Expr) : Expr :=
  match e.alias? with
  | some name => .aliased e.withoutAliases name
  | none => e.withoutAliases

end Expr

/-- The query with the outermost aliases of its fields and no others. -/
def Select.withOutermostAliases (q : Select) : Select :=
  { q with
    fields := q.fields.map Expr.withOutermostAlias
    joins := q.joins.map fun j =>
      { j with criterion := j.criterion.withoutAliases }
    filter := q.filter.map Criterion.withoutAliases
    groupBy := Expr.withoutAliasesEach q.groupBy
    having := q.having.map Criterion.withoutAliases
    orderBy := q.orderBy.map SortKey.withoutAliases }

namespace Expr

mutual

/-- No alias is left in the expression. -/
theorem no_alias_withoutAliases (inner : Expr) (name : String) :
    ∀ e : Expr, .aliased inner name ∉ e.withoutAliases.nodes
  | .field _ => by simp [withoutAliases, nodes]
  | .literal _ => by simp [withoutAliases, nodes]
  | .call _ args => by
      simpa [withoutAliases, nodes] using
        no_alias_withoutAliasesEach inner name args
  | .cast e _ _ _ => by
      simpa [withoutAliases, nodes] using
        no_alias_withoutAliases inner name e
  | .arithmetic _ left right => by
      simpa [withoutAliases, nodes] using
        ⟨no_alias_withoutAliases inner name left,
          no_alias_withoutAliases inner name right⟩
  | .concat parts => by
      simpa [withoutAliases, nodes] using
        no_alias_withoutAliasesEach inner name parts
  | .aliased e _ => no_alias_withoutAliases inner name e

/-- No alias is left in the expressions. -/
theorem no_alias_withoutAliasesEach (inner : Expr) (name : String) :
    ∀ es : List Expr,
      .aliased inner name ∉ nodesList (withoutAliasesEach es)
  | [] => by simp [withoutAliasesEach, nodesList]
  | e :: rest => by
      simpa [withoutAliasesEach, nodesList] using
        ⟨no_alias_withoutAliases inner name e,
          no_alias_withoutAliasesEach inner name rest⟩

end

/-- No expression is lost with its aliases. -/
theorem length_withoutAliasesEach (es : List Expr) :
    (withoutAliasesEach es).length = es.length := by
  induction es with
  | nil => rfl
  | cons e rest ih => simp [withoutAliasesEach, ih]

/-- Arithmetic is arithmetic under any aliases. -/
theorem isArithmetic_withoutAliases : ∀ e : Expr,
    e.withoutAliases.isArithmetic = e.isArithmetic
  | .field _ | .literal _ | .call _ _ | .cast _ _ _ _ | .arithmetic _ _ _
  | .concat _ => rfl
  | .aliased e _ => isArithmetic_withoutAliases e

end Expr

/-! ### Writing without aliases -/

namespace Dialect

variable (d : Dialect)

mutual

/-- Aliases do not show in an expression. -/
theorem exprText_withoutAliases : ∀ e : Expr,
    d.exprText e.withoutAliases = d.exprText e
  | .field _ => rfl
  | .literal _ => rfl
  | .call kind args => by
      rw [Expr.withoutAliases, exprText, exprText,
        Expr.length_withoutAliasesEach, exprTexts_withoutAliases args]
  | .cast e type width scale => by
      rw [Expr.withoutAliases, exprText, exprText,
        exprText_withoutAliases e]
  | .arithmetic op left right => by
      -- The dialect is told whether an operand is arithmetic.
      rw [Expr.withoutAliases, exprText, exprText,
        exprText_withoutAliases left, exprText_withoutAliases right,
        left.isArithmetic_withoutAliases, right.isArithmetic_withoutAliases]
  | .concat parts => by
      rw [Expr.withoutAliases, exprText, exprText,
        exprTexts_withoutAliases parts]
  | .aliased e _ => by
      rw [Expr.withoutAliases, exprText, exprText_withoutAliases e]

/-- Aliases do not show in expressions in a row. -/
theorem exprTexts_withoutAliases : ∀ es : List Expr,
    d.exprTexts (Expr.withoutAliasesEach es) = d.exprTexts es
  | [] => rfl
  | e :: rest => by
      rw [Expr.withoutAliasesEach, exprTexts, exprTexts,
        exprText_withoutAliases e, exprTexts_withoutAliases rest]

end

/-- A list is written the same, as each of its expressions is. -/
theorem exprListText_withoutAliases (es : List Expr) :
    d.exprListText (Expr.withoutAliasesEach es) = d.exprListText es := by
  rw [exprListText, exprTexts_withoutAliases, exprListText]

mutual

/-- Aliases do not show in a condition. -/
theorem criterionText_withoutAliases : ∀ c : Criterion,
    d.criterionText c.withoutAliases = d.criterionText c
  | .compare op left right => by
      rw [Criterion.withoutAliases, criterionText, criterionText,
        exprText_withoutAliases, exprText_withoutAliases]
  | .isNull e => by
      rw [Criterion.withoutAliases, criterionText, criterionText,
        exprText_withoutAliases]
  | .isNotNull e => by
      rw [Criterion.withoutAliases, criterionText, criterionText,
        exprText_withoutAliases]
  | .isIn e values => by
      rw [Criterion.withoutAliases, criterionText, criterionText,
        exprText_withoutAliases, exprListText_withoutAliases]
  | .all criteria => by
      rw [Criterion.withoutAliases, criterionText, criterionText,
        criterionTexts_withoutAliases criteria]
  | .any criteria => by
      rw [Criterion.withoutAliases, criterionText, criterionText,
        criterionTexts_withoutAliases criteria]
  | .not c => by
      rw [Criterion.withoutAliases, criterionText, criterionText,
        criterionText_withoutAliases c]

/-- Aliases do not show in conditions in a row. -/
theorem criterionTexts_withoutAliases : ∀ cs : List Criterion,
    d.criterionTexts (Criterion.withoutAliasesEach cs) = d.criterionTexts cs
  | [] => rfl
  | c :: rest => by
      rw [Criterion.withoutAliasesEach, criterionTexts, criterionTexts,
        criterionText_withoutAliases c, criterionTexts_withoutAliases rest]

end

/-- Aliases do not show in the key of a sort. -/
theorem sortKeyText_withoutAliases (k : SortKey) :
    d.sortKeyText k.withoutAliases = d.sortKeyText k := by
  rw [sortKeyText, SortKey.withoutAliases, exprText_withoutAliases,
    sortKeyText]

end Dialect

/-! ### Queries -/

/-- What has lost its aliases is called nothing in a result. -/
theorem Expr.alias?_withoutAliases : ∀ e : Expr,
    e.withoutAliases.alias? = none
  | .field _ | .literal _ | .call _ _ | .cast _ _ _ _ | .arithmetic _ _ _
  | .concat _ => rfl
  | .aliased e _ => Expr.alias?_withoutAliases e

/-- The name that a field implies hangs on its outermost alias alone. -/
theorem Expr.impliedName?_eq (e : Expr) :
    e.impliedName? = e.alias?.or e.withoutAliases.impliedName? := by
  cases e <;> rfl

namespace Session

variable (s : Session)

/-- A field of a query is written without its aliases, with the outermost
one behind it. -/
theorem fieldText_eq (e : Expr) :
    s.fieldText e = do
      let text ← s.dialect.exprText e.withoutAliases
      return match e.alias? with
        | some name => text ++ " AS " ++ name
        | none => text := by
  rw [Dialect.exprText_withoutAliases]
  -- Only an alias on the outside is looked at.
  cases e with
  | aliased e name => rw [fieldText, Dialect.exprText]; rfl
  | field | literal | call | cast | arithmetic | concat =>
      simp only [Expr.alias?, bind_pure]
      rfl

/-- Of the aliases of a field, only the outermost one shows. -/
theorem fieldText_withOutermostAlias (e : Expr) :
    s.fieldText e.withOutermostAlias = s.fieldText e := by
  rw [s.fieldText_eq e, Expr.withOutermostAlias]
  cases e.alias? with
  | some name => rfl
  | none =>
      rw [s.fieldText_eq, Expr.alias?_withoutAliases,
        Dialect.exprText_withoutAliases]

/-- Of the aliases of the fields of a query, only the outermost ones
show. -/
theorem fieldTexts_withOutermostAlias (es : List Expr) :
    s.fieldTexts (es.map Expr.withOutermostAlias) = s.fieldTexts es := by
  simp only [fieldTexts_eq_mapM, List.mapM_map, Function.comp_def,
    fieldText_withOutermostAlias]

/-- Aliases do not show in the conditions of joins. -/
theorem joinsText_withoutAliases (js : List Join) :
    s.joinsText (js.map fun j =>
        { j with criterion := j.criterion.withoutAliases }) =
      s.joinsText js := by
  have hjoin : ∀ j : Join,
      s.joinText { j with criterion := j.criterion.withoutAliases } =
        s.joinText j := fun j => by
    rw [joinText, Dialect.criterionText_withoutAliases, joinText]
  simp only [joinsText_eq_mapM, List.mapM_map, Function.comp_def, hjoin]

/-- A condition has aliases only inside of its expressions, where they do not
show. -/
theorem conditionClause_withoutAliases (keyword : String)
    (c : Option Criterion) :
    s.conditionClause keyword (c.map Criterion.withoutAliases) =
      s.conditionClause keyword c := by
  cases c with
  | none => rfl
  | some c =>
      rw [Option.map_some, conditionClause,
        Dialect.criterionText_withoutAliases, conditionClause]

/-- Rows are grouped by expressions, not by their aliases. -/
theorem groupClause_withoutAliases (es : List Expr) :
    s.groupClause (Expr.withoutAliasesEach es) = s.groupClause es := by
  have hempty : (Expr.withoutAliasesEach es).isEmpty = es.isEmpty := by
    cases es <;> rfl
  rw [groupClause, hempty, Dialect.exprListText_withoutAliases,
    groupClause]

/-- Nor are they sorted by them. -/
theorem orderClause_withoutAliases (ks : List SortKey) :
    s.orderClause (ks.map SortKey.withoutAliases) = s.orderClause ks := by
  have htexts : s.sortKeyTexts (ks.map SortKey.withoutAliases) =
      s.sortKeyTexts ks := by
    simp only [sortKeyTexts_eq_mapM, List.mapM_map, Function.comp_def,
      Dialect.sortKeyText_withoutAliases]
  rw [orderClause, List.isEmpty_map, htexts, orderClause]

/-- Of the aliases in a query, only the outermost ones of its fields
show. -/
theorem selectText_withOutermostAliases (q : Select) :
    s.selectText q.withOutermostAliases = s.selectText q := by
  simp only [selectText, Select.withOutermostAliases,
    fieldTexts_withOutermostAlias, joinsText_withoutAliases,
    conditionClause_withoutAliases, groupClause_withoutAliases,
    orderClause_withoutAliases, List.isEmpty_map]
  rfl

/-- Aliases do not show, in any dialect and at any depth: what is written
for an expression, or why it cannot be written, is the same when all of its
aliases are taken out. So conditions and keys of a sort that differ in
aliases alone are written alike. Of the aliases of a field of a query only
the outermost one shows, in what is written for it and in the name that it
implies, and so it is in the whole query. -/
theorem aliases_unseen :
    (∀ e : Expr,
      (∀ inner name, .aliased inner name ∉ e.withoutAliases.nodes) ∧
      s.dialect.exprText e = s.dialect.exprText e.withoutAliases) ∧
    (∀ c c' : Criterion, c.withoutAliases = c'.withoutAliases →
      s.dialect.criterionText c = s.dialect.criterionText c') ∧
    (∀ k k' : SortKey, k.withoutAliases = k'.withoutAliases →
      s.dialect.sortKeyText k = s.dialect.sortKeyText k') ∧
    (∀ e e' : Expr, e.alias? = e'.alias? →
      e.withoutAliases = e'.withoutAliases →
      s.fieldText e = s.fieldText e' ∧
        e.impliedName? = e'.impliedName?) ∧
    ∀ q q' : Select, q.withOutermostAliases = q'.withOutermostAliases →
      s.selectText q = s.selectText q' := by
  refine ⟨fun e =>
    ⟨fun inner name => Expr.no_alias_withoutAliases inner name e,
      (s.dialect.exprText_withoutAliases e).symm⟩, fun c c' h => ?_,
    fun k k' h => ?_, fun e e' halias h => ?_, fun q q' h => ?_⟩
  · rw [← Dialect.criterionText_withoutAliases, h,
      Dialect.criterionText_withoutAliases]
  · rw [← Dialect.sortKeyText_withoutAliases, h,
      Dialect.sortKeyText_withoutAliases]
  · rw [s.fieldText_eq, s.fieldText_eq, e.impliedName?_eq,
      e'.impliedName?_eq, halias, h]
    exact ⟨rfl, rfl⟩
  · rw [← s.selectText_withOutermostAliases q, h,
      selectText_withOutermostAliases]

end Session

/-- A net amount with its rate, under aliases around an operand, an argument
and a part, or without any. -/
def netAmount (label : Expr → Expr) : Expr :=
  .arithmetic .times
    (label (label (.arithmetic .minus (.ofName "gross")
      (.call .coalesce [label (.ofName "tax"), .literal (.integer 0)]))))
    (.cast (label (.concat [.ofName "rate", label (.ofName "scale")]))
      .decimal 9 4)

/-- A net amount is compared, sorted by and selected alike with the aliases
in it and without them, as long as that of the field itself is the same. -/
theorem netAmount_aliases_unseen :
    let plain := netAmount id
    let labelled := netAmount (.aliased · "part")
    ∀ s : Session,
      s.dialect.criterionText (.isIn labelled [.aliased plain "n"]) =
          s.dialect.criterionText (.isIn plain [labelled]) ∧
        s.dialect.sortKeyText { expr := .aliased labelled "key" } =
          s.dialect.sortKeyText { expr := plain } ∧
        s.fieldText (.aliased labelled "net") =
          s.fieldText (.aliased (.aliased plain "gross") "net") ∧
        s.selectText
            { fields := [.aliased labelled "net"]
              groupBy := [.aliased plain "net"] } =
          s.selectText
            { fields := [.aliased plain "net"], groupBy := [plain] } := by
  intro plain labelled s
  obtain ⟨-, hcriterion, hkey, hfield, hquery⟩ := s.aliases_unseen
  exact ⟨hcriterion _ _ rfl, hkey _ _ rfl, (hfield _ _ rfl rfl).1,
    hquery _ _ rfl⟩

end SchemaEvolution

import SchemaEvolution.Dialect.Ansi
import SchemaEvolution.Proofs.Sql.Literals
import SchemaEvolution.Proofs.Support.Outcome
import SchemaEvolution.Session.StatementText

/-!
# `SchemaEvolution.Proofs.Sql.LiteralRule`: a rule of one's own for literals

A dialect may write literals in its own way and leave everything else to
standard SQL. Its rule has to reach every literal, however deep it is
nested, and nothing but literals. Both are said by a comparison with
standard SQL itself: what such a dialect writes is what standard SQL
writes for the same syntax in which each literal has made way for a
field, named by what the rule makes of the literal.

* `RenderError.under`: the errors of two dialects differ at most in the
  name of the dialect.
* `exprText_withLiterals` and its siblings: the comparison for each kind
  of syntax, by its recursion.
* `Session.literal_rule_reaches`: all of them together.
-/

set_option autoImplicit false

namespace SchemaEvolution

/-- Standard SQL under another name, with a rule of its own for
literals. -/
def Dialect.withLiterals (name : String) (write : Literal → String) :
    Dialect :=
  { Dialect.ansi with
    name := name
    literal := fun _ l => .ok (write l) }

/-- A field without a table in the place of each literal, named by what is
made of the literal. -/
def Substitution.fields (write : Literal → String) : Substitution :=
  fun _ l => .ofName (write l)

/-- The rule is the same beneath every branch. -/
@[simp]
theorem Substitution.fields_under (write : Literal → String) (i : Nat) :
    (fields write).under i = fields write := rfl

/-- The error as the dialect of this name has it. -/
def RenderError.under (dialect : String) : RenderError → RenderError
  | .unsupported _ request => .unsupported dialect request
  | e => e

variable (name : String) (write : Literal → String)

/-! ### What does not hang on the dialect's name -/

/-- A wrong number of arguments. -/
theorem mapError_checkCount (kind : FunctionKind) (n : Nat) :
    (kind.checkCount n).mapError (.under name) = kind.checkCount n := by
  unfold FunctionKind.checkCount
  split <;> rfl

/-- A type that no column has. -/
theorem mapError_columnType (type : DataType) (width scale : UInt32) :
    (Ansi.columnType type width scale).mapError (.under name) =
      Ansi.columnType type width scale := by
  cases type <;> rfl

/-- A function without a standard form is the one thing whose error names
the dialect. -/
theorem mapError_call (dialect : String) (kind : FunctionKind) :
    (Ansi.call dialect kind).mapError (.under name) =
      Ansi.call name kind := by
  cases kind <;> rfl

/-! ### Expressions and conditions -/

mutual

/-- An expression is written as standard SQL writes it with fields for its
literals. -/
theorem exprText_withLiterals : ∀ e : Expr,
    (Dialect.withLiterals name write).exprText e =
      (Dialect.ansi.exprText (e.substitute (.fields write))).mapError
        (.under name)
  | .field _ => rfl
  | .literal _ => rfl
  | .call kind args => by
      simp only [Expr.substitute, Dialect.exprText, mapError_bind,
        Expr.length_substituteList, mapError_checkCount,
        exprTexts_withLiterals args]
      -- The only error that names the dialect is that of a call.
      have hcall : (Dialect.ansi.call Dialect.ansi.name kind).mapError
          (.under name) = (Dialect.withLiterals name write).call
            (Dialect.withLiterals name write).name kind :=
        mapError_call name _ kind
      rw [hcall]
      rfl
  | .cast e type width scale => by
      simp only [Expr.substitute, Dialect.exprText, mapError_bind,
        exprText_withLiterals e]
      have htype : (Dialect.ansi.columnType type width scale).mapError
          (.under name) =
            (Dialect.withLiterals name write).columnType type width scale :=
        mapError_columnType name type width scale
      rw [htype]
      rfl
  | .arithmetic op left right => by
      -- A field is no more arithmetic than the literal whose place it
      -- takes, so the same operands are bracketed.
      simp only [Expr.substitute, Dialect.exprText, mapError_bind,
        Substitution.fields_under,
        exprText_withLiterals left, exprText_withLiterals right,
        Expr.isArithmetic_substitute (g := .fields write) fun _ _ => rfl]
      rfl
  | .concat parts => by
      simp only [Expr.substitute, Dialect.exprText, mapError_bind,
        exprTexts_withLiterals parts]
      rfl
  | .aliased e _ => by
      rw [Expr.substitute, Dialect.exprText, Dialect.exprText,
        exprText_withLiterals e]

/-- So are expressions in a row. -/
theorem exprTexts_withLiterals : ∀ es : List Expr,
    (Dialect.withLiterals name write).exprTexts es =
      (Dialect.ansi.exprTexts
        (Expr.substituteList (.fields write) es)).mapError (.under name)
  | [] => rfl
  | e :: rest => by
      simp only [Expr.substituteList, Dialect.exprTexts, mapError_bind,
        Substitution.fields_under, exprText_withLiterals e,
        exprTexts_withLiterals rest, pure_eq_ok, ok_mapError]

end

/-- So is a list of expressions. -/
theorem exprListText_withLiterals (es : List Expr) :
    (Dialect.withLiterals name write).exprListText es =
      (Dialect.ansi.exprListText
        (Expr.substituteList (.fields write) es)).mapError
          (.under name) := by
  simp only [Dialect.exprListText, mapError_bind,
    exprTexts_withLiterals]
  rfl

mutual

/-- A condition is written as standard SQL writes it with fields for its
literals. -/
theorem criterionText_withLiterals : ∀ c : Criterion,
    (Dialect.withLiterals name write).criterionText c =
      (Dialect.ansi.criterionText (c.substitute (.fields write))).mapError
        (.under name)
  | .compare op left right => by
      simp only [Criterion.substitute, Dialect.criterionText, mapError_bind,
        Substitution.fields_under, exprText_withLiterals]
      rfl
  | .isNull e => by
      simp only [Criterion.substitute, Dialect.criterionText, mapError_bind,
        exprText_withLiterals]
      rfl
  | .isNotNull e => by
      simp only [Criterion.substitute, Dialect.criterionText, mapError_bind,
        exprText_withLiterals]
      rfl
  | .isIn e values => by
      simp only [Criterion.substitute, Dialect.criterionText, mapError_bind,
        Substitution.fields_under, exprText_withLiterals,
        exprListText_withLiterals]
      rfl
  | .all criteria => by
      simp only [Criterion.substitute, Dialect.criterionText, mapError_bind,
        criterionTexts_withLiterals criteria]
      rfl
  | .any criteria => by
      simp only [Criterion.substitute, Dialect.criterionText, mapError_bind,
        criterionTexts_withLiterals criteria]
      rfl
  | .not c => by
      simp only [Criterion.substitute, Dialect.criterionText, mapError_bind,
        criterionText_withLiterals c]
      rfl

/-- So are conditions in a row. -/
theorem criterionTexts_withLiterals : ∀ cs : List Criterion,
    (Dialect.withLiterals name write).criterionTexts cs =
      (Dialect.ansi.criterionTexts
        (Criterion.substituteList (.fields write) cs)).mapError
          (.under name)
  | [] => rfl
  | c :: rest => by
      simp only [Criterion.substituteList, Dialect.criterionTexts,
        mapError_bind, Substitution.fields_under,
        criterionText_withLiterals c, criterionTexts_withLiterals rest]
      rfl

end

/-- A key of a sort is written as standard SQL writes it with fields for
its literals. -/
theorem sortKeyText_withLiterals (k : SortKey) :
    (Dialect.withLiterals name write).sortKeyText k =
      (Dialect.ansi.sortKeyText (k.substitute (.fields write))).mapError
        (.under name) := by
  simp only [SortKey.substitute, Dialect.sortKeyText, mapError_bind,
    exprText_withLiterals]
  rfl

/-! ### Queries -/

/-- The session with the same configuration and the same temporary tables
in another dialect. -/
def Session.inDialect (s : Session) (d : Dialect) : Session :=
  { s with target := { s.target with dialect := d } }

/-- The session in another dialect has it, whatever its target is. -/
@[simp]
theorem Session.dialect_inDialect (s : Session) (d : Dialect) :
    (s.inDialect d).dialect = d := rfl

section Clauses

variable (s : Session)

/-- Tables are named alike. -/
theorem tableText_withLiterals (t : TableRef) :
    (s.inDialect (.withLiterals name write)).tableText t =
      ((s.inDialect .ansi).tableText t).mapError (.under name) := by
  unfold Session.tableText checkTableName
  split <;> rfl

/-- A field of a query is written under its outermost alias. -/
theorem fieldText_withLiterals (e : Expr) :
    (s.inDialect (.withLiterals name write)).fieldText e =
      ((s.inDialect .ansi).fieldText
        (e.substitute (.fields write))).mapError (.under name) := by
  cases e with
  | aliased e outermost =>
      simp only [Expr.substitute, Session.fieldText, mapError_bind,
        Session.dialect_inDialect, exprText_withLiterals]
      rfl
  | field _ | literal _ | call _ _ | cast _ _ _ _ | arithmetic _ _ _
  | concat _ => exact exprText_withLiterals name write _

/-- The parts of a list are written as standard SQL writes them with
fields for their literals, if each of them is. -/
theorem mapM_withLiterals {α : Type} {visit : Substitution → α → α}
    {own standard : α → Except RenderError String}
    (h : ∀ a, own a =
      (standard (visit (.fields write) a)).mapError (.under name))
    (as : List α) :
    as.mapM own = ((substituteEach visit (.fields write) as).mapM
      standard).mapError (.under name) := by
  induction as with
  | nil => rfl
  | cons a rest ih =>
      simp only [substituteEach, List.mapM_cons, mapError_bind,
        Substitution.fields_under, h, ih]
      rfl

/-- The fields of a query. -/
theorem fieldTexts_withLiterals (es : List Expr) :
    (s.inDialect (.withLiterals name write)).fieldTexts es =
      ((s.inDialect .ansi).fieldTexts
        (Expr.substituteList (.fields write) es)).mapError
          (.under name) := by
  rw [Session.fieldTexts_eq_mapM, Session.fieldTexts_eq_mapM,
    Expr.substituteList_eq]
  exact mapM_withLiterals name write (fieldText_withLiterals name write s) es

/-- One of the joined tables. -/
theorem joinText_withLiterals (j : Join) :
    (s.inDialect (.withLiterals name write)).joinText j =
      ((s.inDialect .ansi).joinText
        (j.substitute (.fields write))).mapError (.under name) := by
  simp only [Session.joinText, Join.substitute, mapError_bind,
    Session.dialect_inDialect, tableText_withLiterals,
    criterionText_withLiterals]
  rfl

/-- The joined tables of a query. -/
theorem joinsText_withLiterals (js : List Join) :
    (s.inDialect (.withLiterals name write)).joinsText js =
      ((s.inDialect .ansi).joinsText
        (substituteEach Join.substitute (.fields write) js)).mapError
          (.under name) := by
  rw [Session.joinsText_eq_mapM, Session.joinsText_eq_mapM, mapError_bind,
    mapM_withLiterals name write (joinText_withLiterals name write s) js]
  rfl

/-- The keys of a sort. -/
theorem sortKeyTexts_withLiterals (ks : List SortKey) :
    (s.inDialect (.withLiterals name write)).sortKeyTexts ks =
      ((s.inDialect .ansi).sortKeyTexts
        (substituteEach SortKey.substitute (.fields write) ks)).mapError
          (.under name) := by
  rw [Session.sortKeyTexts_eq_mapM, Session.sortKeyTexts_eq_mapM]
  exact mapM_withLiterals name write (sortKeyText_withLiterals name write) ks

/-- A clause that is a condition. -/
theorem conditionClause_withLiterals (keyword : String)
    (c : Option Criterion) :
    (s.inDialect (.withLiterals name write)).conditionClause keyword c =
      ((s.inDialect .ansi).conditionClause keyword
        (c.map (Criterion.substitute (.fields write)))).mapError
          (.under name) := by
  cases c with
  | none => rfl
  | some c =>
      simp only [Option.map_some, Session.conditionClause, mapError_bind,
        Session.dialect_inDialect, criterionText_withLiterals]
      rfl

/-- What a query reads from. -/
theorem sourceClause_withLiterals (t : Option TableRef) :
    (s.inDialect (.withLiterals name write)).sourceClause t =
      ((s.inDialect .ansi).sourceClause t).mapError (.under name) := by
  cases t with
  | none => rfl
  | some t =>
      simp only [Session.sourceClause, mapError_bind,
        tableText_withLiterals]
      rfl

/-- The clause that groups rows. -/
theorem groupClause_withLiterals (es : List Expr) :
    (s.inDialect (.withLiterals name write)).groupClause es =
      ((s.inDialect .ansi).groupClause
        (Expr.substituteList (.fields write) es)).mapError
          (.under name) := by
  cases es with
  | nil => rfl
  | cons e rest =>
      -- The list is compared whole: that it is not empty decides whether
      -- the clause is there.
      have hlist := exprListText_withLiterals name write (e :: rest)
      simp only [Session.groupClause, List.isEmpty_cons,
        Session.dialect_inDialect, hlist, Expr.substituteList,
        Bool.false_eq_true, if_false, mapError_bind]
      rfl

/-- The clause that sorts rows. -/
theorem orderClause_withLiterals (ks : List SortKey) :
    (s.inDialect (.withLiterals name write)).orderClause ks =
      ((s.inDialect .ansi).orderClause
        (substituteEach SortKey.substitute (.fields write) ks)).mapError
          (.under name) := by
  cases ks with
  | nil => rfl
  | cons k rest =>
      have hkeys := sortKeyTexts_withLiterals name write s (k :: rest)
      simp only [Session.orderClause, List.isEmpty_cons, hkeys,
        substituteEach, Bool.false_eq_true, if_false, mapError_bind]
      rfl

/-- A query is written as standard SQL writes it with fields for its
literals. -/
theorem selectText_withLiterals (q : Select) :
    (s.inDialect (.withLiterals name write)).selectText q =
      ((s.inDialect .ansi).selectText
        (q.substitute (.fields write))).mapError (.under name) := by
  -- Without fields a query takes every column, on both sides alike.
  have hempty : (Expr.substituteList (.fields write) q.fields).isEmpty =
      q.fields.isEmpty := by
    cases q.fields <;> rfl
  simp only [Session.selectText, Select.substitute, mapError_bind,
    Substitution.fields_under, fieldTexts_withLiterals,
    sourceClause_withLiterals, joinsText_withLiterals,
    conditionClause_withLiterals, groupClause_withLiterals,
    orderClause_withLiterals, hempty]
  rfl

end Clauses

/-- A rule for literals reaches every literal and nothing else. What a
session in a dialect with such a rule writes for an expression, a
condition, a key of a sort or a query is what the same session writes in
standard SQL when fields named by the rule stand in the places of all
literals. An error is the same too, up to the name of the dialect in
it. -/
theorem Session.literal_rule_reaches (s : Session) (name : String)
    (write : Literal → String) :
    let own := s.inDialect (.withLiterals name write)
    let standard := s.inDialect .ansi
    let fields := Substitution.fields write
    (∀ e : Expr, own.dialect.exprText e =
      (standard.dialect.exprText (e.substitute fields)).mapError
        (.under name)) ∧
    (∀ c : Criterion, own.dialect.criterionText c =
      (standard.dialect.criterionText (c.substitute fields)).mapError
        (.under name)) ∧
    (∀ k : SortKey, own.dialect.sortKeyText k =
      (standard.dialect.sortKeyText (k.substitute fields)).mapError
        (.under name)) ∧
    ∀ q : Select, own.selectText q =
      (standard.selectText (q.substitute fields)).mapError (.under name) :=
  ⟨exprText_withLiterals name write, criterionText_withLiterals name write,
    sortKeyText_withLiterals name write,
    selectText_withLiterals name write s⟩

/-- A placeholder for a constant stands inside a cast too. -/
example :
    (Dialect.withLiterals "Prepared" fun _ => "?").exprText
      (.cast (.literal (.string "EUR")) .string 3 0) =
        .ok "CAST(? AS VARCHAR(3))" := by
  cbv

end SchemaEvolution

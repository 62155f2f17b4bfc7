import SchemaEvolution.Query.Statement

/-!
# `SchemaEvolution.Proofs.Sql.Literals`: the literals of a statement

Every literal of a statement has a place: the way to it from the root,
as the numbers of the branches to take. `literals` lists the literals of
a statement with their places, and `substitute` puts an expression in
the place of each. `names` are the names that a statement writes.

The functions come once for each kind of syntax, from expressions up to
statements. Lists of expressions and of conditions have functions of
their own, for the sake of the recursion; they are what `substituteEach`
and `literalsOfEach` make of any list (`Expr.substituteList_eq`,
`Expr.literalsList_eq`).

* `Expr.isArithmetic_substitute`: what is arithmetic stays arithmetic.
* `Statement.written`: the literals that a statement writes.
-/

set_option autoImplicit false

namespace SchemaEvolution

/-- The way to a node from the root: the numbers of the branches to
take. -/
abbrev Place := List Nat

/-- What is to stand in the place of each literal. -/
abbrev Substitution := Place → Literal → Expr

/-- Literals with their places. -/
abbrev Literals := List (Place × Literal)

/-- What is to stand in the places beneath a branch. -/
def Substitution.under (g : Substitution) (i : Nat) : Substitution :=
  fun place => g (i :: place)

/-- The literals beneath a branch. -/
def Literals.beneath (ls : Literals) (i : Nat) : Literals :=
  ls.map fun l => (i :: l.1, l.2)

/-! ### Expressions -/

namespace Expr

mutual

/-- The expression with others in the places of its literals. -/
def substitute (g : Substitution) : Expr → Expr
  | .field f => .field f
  | .literal l => g [] l
  | .call kind args => .call kind (substituteList g args)
  | .cast e type width scale => .cast (substitute g e) type width scale
  | .arithmetic op left right =>
      .arithmetic op (substitute (g.under 0) left)
        (substitute (g.under 1) right)
  | .concat parts => .concat (substituteList g parts)
  | .aliased e name => .aliased (substitute g e) name

/-- Expressions with others in the places of their literals. -/
def substituteList (g : Substitution) : List Expr → List Expr
  | [] => []
  | e :: rest =>
      substitute (g.under 0) e :: substituteList (g.under 1) rest

end

mutual

/-- The literals of an expression. -/
def literals : Expr → Literals
  | .field _ => []
  | .literal l => [([], l)]
  | .call _ args => literalsList args
  | .cast e _ _ _ => literals e
  | .arithmetic _ left right =>
      (literals left).beneath 0 ++ (literals right).beneath 1
  | .concat parts => literalsList parts
  | .aliased e _ => literals e

/-- The literals of expressions. -/
def literalsList : List Expr → Literals
  | [] => []
  | e :: rest => (literals e).beneath 0 ++ (literalsList rest).beneath 1

end

end Expr

/-- The names by which a table is referred to. -/
def TableRef.names (t : TableRef) : List String :=
  t.name :: (t.schema.toList ++ t.aliasName.toList)

/-- The names by which a field is referred to. -/
def FieldRef.names (f : FieldRef) : List String :=
  f.name :: f.table.toList.flatMap TableRef.names

namespace Expr

mutual

/-- The names in an expression. -/
def names : Expr → List String
  | .field f => f.names
  | .literal _ => []
  | .call _ args => namesList args
  | .cast e _ _ _ => names e
  | .arithmetic _ left right => names left ++ names right
  | .concat parts => namesList parts
  | .aliased e name => name :: names e

/-- The names in expressions. -/
def namesList : List Expr → List String
  | [] => []
  | e :: rest => names e ++ namesList rest

end

end Expr

/-- A substitution leaves as many expressions as there were. -/
theorem Expr.length_substituteList (g : Substitution) (es : List Expr) :
    (Expr.substituteList g es).length = es.length := by
  induction es generalizing g with
  | nil => rfl
  | cons e rest ih =>
      rw [Expr.substituteList, List.length_cons, ih, List.length_cons]

/-- Where no literal makes way for arithmetic, what is arithmetic stays
arithmetic and nothing becomes it. -/
theorem Expr.isArithmetic_substitute {g : Substitution}
    (h : ∀ place l, (g place l).isArithmetic = false) (e : Expr) :
    (e.substitute g).isArithmetic = e.isArithmetic := by
  fun_induction Expr.isArithmetic e with
  | case1 e name ih =>
      rw [Expr.substitute, Expr.isArithmetic]
      exact ih
  | case2 op left right => rfl
  | case3 e haliased harithmetic =>
      cases e with
      | aliased e name => exact absurd rfl (haliased e name)
      | arithmetic op left right =>
          exact absurd rfl (harithmetic op left right)
      | literal l => exact h [] l
      | field _ | call _ _ | cast _ _ _ _ | concat _ => rfl

/-! ### Conditions -/

namespace Criterion

mutual

/-- The condition with others in the places of its literals. -/
def substitute (g : Substitution) : Criterion → Criterion
  | .compare op left right =>
      .compare op (left.substitute (g.under 0))
        (right.substitute (g.under 1))
  | .isNull e => .isNull (e.substitute g)
  | .isNotNull e => .isNotNull (e.substitute g)
  | .isIn e values =>
      .isIn (e.substitute (g.under 0))
        (Expr.substituteList (g.under 1) values)
  | .all criteria => .all (substituteList g criteria)
  | .any criteria => .any (substituteList g criteria)
  | .not c => .not (substitute g c)

/-- Conditions with others in the places of their literals. -/
def substituteList (g : Substitution) : List Criterion → List Criterion
  | [] => []
  | c :: rest =>
      substitute (g.under 0) c :: substituteList (g.under 1) rest

end

mutual

/-- The literals of a condition. -/
def literals : Criterion → Literals
  | .compare _ left right =>
      left.literals.beneath 0 ++ right.literals.beneath 1
  | .isNull e => e.literals
  | .isNotNull e => e.literals
  | .isIn e values =>
      e.literals.beneath 0 ++ (Expr.literalsList values).beneath 1
  | .all criteria => literalsList criteria
  | .any criteria => literalsList criteria
  | .not c => literals c

/-- The literals of conditions. -/
def literalsList : List Criterion → Literals
  | [] => []
  | c :: rest => (literals c).beneath 0 ++ (literalsList rest).beneath 1

end

mutual

/-- The names in a condition. -/
def names : Criterion → List String
  | .compare _ left right => left.names ++ right.names
  | .isNull e => e.names
  | .isNotNull e => e.names
  | .isIn e values => e.names ++ Expr.namesList values
  | .all criteria => namesList criteria
  | .any criteria => namesList criteria
  | .not c => names c

/-- The names in conditions. -/
def namesList : List Criterion → List String
  | [] => []
  | c :: rest => names c ++ namesList rest

end

end Criterion

/-! ### The parts of a query -/

/-- The elements of a list with others in the places of their
literals. -/
def substituteEach {α : Type} (visit : Substitution → α → α)
    (g : Substitution) : List α → List α
  | [] => []
  | a :: rest =>
      visit (g.under 0) a :: substituteEach visit (g.under 1) rest

/-- The literals of the elements of a list. -/
def literalsOfEach {α : Type} (visit : α → Literals) : List α → Literals
  | [] => []
  | a :: rest =>
      (visit a).beneath 0 ++ (literalsOfEach visit rest).beneath 1

/-- What is put in the places of the literals of expressions. -/
theorem Expr.substituteList_eq (g : Substitution) (es : List Expr) :
    Expr.substituteList g es = substituteEach Expr.substitute g es := by
  induction es generalizing g with
  | nil => rfl
  | cons e rest ih => rw [Expr.substituteList, substituteEach, ih]

/-- The literals of expressions are those of each of them. -/
theorem Expr.literalsList_eq (es : List Expr) :
    Expr.literalsList es = literalsOfEach Expr.literals es := by
  induction es with
  | nil => rfl
  | cons e rest ih => rw [Expr.literalsList, literalsOfEach, ih]

/-- The key with others in the places of its literals. -/
def SortKey.substitute (g : Substitution) (k : SortKey) : SortKey :=
  { k with expr := k.expr.substitute g }

/-- The literals of a key. -/
def SortKey.literals (k : SortKey) : Literals := k.expr.literals

/-- The join with others in the places of its literals. -/
def Join.substitute (g : Substitution) (j : Join) : Join :=
  { j with criterion := j.criterion.substitute g }

/-- The literals of a join. -/
def Join.literals (j : Join) : Literals := j.criterion.literals

/-- The names in a join. -/
def Join.names (j : Join) : List String :=
  j.table.names ++ j.criterion.names

/-- The literals of a condition, if there is one. -/
def conditionLiterals : Option Criterion → Literals
  | none => []
  | some c => c.literals

/-- The names in a condition, if there is one. -/
def conditionNames : Option Criterion → List String
  | none => []
  | some c => c.names

namespace Select

/-- The query with others in the places of its literals. -/
def substitute (g : Substitution) (q : Select) : Select :=
  { q with
    fields := Expr.substituteList (g.under 0) q.fields
    joins := substituteEach Join.substitute (g.under 1) q.joins
    filter := q.filter.map (Criterion.substitute (g.under 2))
    groupBy := Expr.substituteList (g.under 3) q.groupBy
    having := q.having.map (Criterion.substitute (g.under 4))
    orderBy := substituteEach SortKey.substitute (g.under 5) q.orderBy }

/-- The literals of a query. -/
def literals (q : Select) : Literals :=
  (Expr.literalsList q.fields).beneath 0 ++
    (literalsOfEach Join.literals q.joins).beneath 1 ++
    (conditionLiterals q.filter).beneath 2 ++
    (Expr.literalsList q.groupBy).beneath 3 ++
    (conditionLiterals q.having).beneath 4 ++
    (literalsOfEach SortKey.literals q.orderBy).beneath 5

/-- The names in a query. Those in its hints are not written. -/
def names (q : Select) : List String :=
  Expr.namesList q.fields ++ q.source.toList.flatMap TableRef.names ++
    q.joins.flatMap Join.names ++ conditionNames q.filter ++
    Expr.namesList q.groupBy ++ conditionNames q.having ++
    q.orderBy.flatMap fun k => k.expr.names

end Select

/-! ### Statements -/

/-- The rows with others in the places of their literals. -/
def InsertSource.substitute (g : Substitution) :
    InsertSource → InsertSource
  | .values es => .values (Expr.substituteList g es)
  | .select q => .select (q.substitute g)

/-- The literals of rows. -/
def InsertSource.literals : InsertSource → Literals
  | .values es => Expr.literalsList es
  | .select q => q.literals

/-- The names in rows. -/
def InsertSource.names : InsertSource → List String
  | .values es => Expr.namesList es
  | .select q => q.names

namespace Statement

/-- The statement with others in the places of its literals. -/
def substitute (g : Substitution) : Statement → Statement
  | .select q => .select (q.substitute g)
  | .merge m =>
      .merge { m with
        source := m.source.substitute (g.under 0)
        key := Expr.substituteList (g.under 1) m.key }
  | .insert i => .insert { i with source := i.source.substitute g }
  | .update u =>
      .update { u with
        assignments := Expr.substituteList (g.under 0) u.assignments
        filter := u.filter.map (Criterion.substitute (g.under 1)) }
  | .delete d =>
      .delete { d with filter := d.filter.map (Criterion.substitute g) }

/-- The literals of a statement. -/
def literals : Statement → Literals
  | .select q => q.literals
  | .merge m =>
      m.source.literals.beneath 0 ++ (Expr.literalsList m.key).beneath 1
  | .insert i => i.source.literals
  | .update u =>
      (Expr.literalsList u.assignments).beneath 0 ++
        (conditionLiterals u.filter).beneath 1
  | .delete d => conditionLiterals d.filter

/-- The literals that are written. Of the key of a merge only the names
are. -/
def written : Statement → Literals
  | .merge m => m.source.literals.beneath 0
  | st => st.literals

/-- The names in a statement. -/
def names : Statement → List String
  | .select q => q.names
  | .merge m =>
      m.target.names ++ m.source.names ++ Expr.namesList m.key
  | .insert i => i.target.names ++ i.columns ++ i.source.names
  | .update u =>
      u.target.names ++ Expr.namesList u.assignments ++
        conditionNames u.filter
  | .delete d => d.target.names ++ conditionNames d.filter

end Statement

end SchemaEvolution

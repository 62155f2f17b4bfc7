import SchemaEvolution.Query.Statement
import SchemaEvolution.Schema.Table

/-!
# `SchemaEvolution.Schema.Change`: edits and changes of a schema

An edit names what it is about and says what is to become of it. What
that means for the statements is worked out against a snapshot: there it
becomes a change, which carries the table as it stands afterwards, except
where the table goes away.
-/

set_option autoImplicit false

namespace SchemaEvolution

/-- A view, with its query where that is known. -/
structure View where
  name : String
  select : Option Select := none
deriving DecidableEq, Hashable

/-- An edit of a schema. -/
inductive SchemaEdit where
  | addTable (table : Table)
  | removeTable (table : String)
  | renameTable (source target : String)
  | addColumn (table : String) (column : Column)
  | changeColumn (table column : String) (target : Column)
  | removeColumn (table column : String)
  | addIndex (table : String) (index : Index)
  | removeIndex (table index : String)
  | renameIndex (table source target : String)
  | changePrimaryKey (table : String) (columns : List String)
  | removeView (view : String)
deriving BEq

namespace SchemaEdit

/-- The name of the table or view that an edit is about, as it is
before the edit. -/
def target : SchemaEdit → String
  | .addTable t => t.name
  | .removeTable t | .addColumn t _ | .changeColumn t _ _
  | .removeColumn t _ | .addIndex t _ | .removeIndex t _
  | .renameIndex t _ _ | .changePrimaryKey t _ => t
  | .renameTable source _ => source
  | .removeView v => v

end SchemaEdit

/-- A change of a schema. -/
inductive SchemaChange where
  | addTable (table : Table)
  | removeTable (table : Table)
  | renameTable (source target : Table)
  | addColumn (table : Table) (column : Column)
  | changeColumn (table : Table) (source target : Column)
  | removeColumn (table : Table) (column : Column)
  | addIndex (table : Table) (index : Index)
  | removeIndex (table : Table) (index : Index)
  | renameIndex (table : Table) (source target : String)
  | changePrimaryKey (table : Table) (source target : List String)
  | removeView (view : View)
deriving BEq, Hashable

namespace SchemaChange

/-- The name of the table or view that a change is about. -/
def subject : SchemaChange → String
  | .addTable t | .removeTable t | .renameTable _ t
  | .addColumn t _ | .changeColumn t _ _ | .removeColumn t _
  | .addIndex t _ | .removeIndex t _ | .renameIndex t _ _
  | .changePrimaryKey t _ _ => t.name
  | .removeView v => v.name

end SchemaChange

end SchemaEvolution

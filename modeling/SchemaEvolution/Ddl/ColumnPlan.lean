import SchemaEvolution.Ddl.TablePlan

/-!
# `SchemaEvolution.Ddl.ColumnPlan`: adding, changing and dropping columns

A primary key cannot stay while one of its columns comes, changes or
goes: it is dropped before and added after. Indexes on a column that
changes are treated the same way. A column that becomes autonumbered,
or stops being so, is dropped and added anew.
-/

set_option autoImplicit false

namespace SchemaEvolution

namespace Target

/-- Adds a column to a table, which is given with the column in it. -/
def addColumn (t : Target) (table : Table) (c : Column) :
    Except RenderError (List Ddl) := do
  table.validate
  let definition ← t.columnDefinition table c
  let name := t.tableName table
  let after ← t.dialect.columnAdded name c (t.defaultSql table c)
  let key := table.primaryKey
  let otherKeyColumn := key.any fun n => !c.IsNamed n
  return (if c.inKey && otherKeyColumn then [t.dropKey table] else []) ++
    t.createSequences table [c] ++ [.addColumn name definition] ++
    (if c.inKey then t.addKey table key else []) ++ after

/-- Drops a column of a table, which is given without the column. -/
def dropColumn (t : Target) (table : Table) (c : Column) :
    Except RenderError (List Ddl) := do
  table.validate
  let name := t.tableName table
  return (if c.inKey then [t.dropKey table] else []) ++
    [.dropColumn name c.name] ++ t.dropSequences table [c] ++
    (if c.inKey then t.addKey table table.primaryKey else []) ++
    t.dialect.columnDropped name c

/-- Changes the type of a column. -/
def alterType (t : Target) (table : Table) (c : Column) :
    Except RenderError Ddl := do
  let type ← t.columnType c
  return .alterType (t.tableName table) c.name type

/-- Renames a column. -/
def renameColumn (t : Target) (table : Table) (source target : String) :
    Ddl :=
  .renameColumn (t.tableName table) source target

/-- Changes the default and the nullability of a column. -/
def alterNullability (t : Target) (table : Table)
    (source target : Column) : Except RenderError (List Ddl) := do
  let alterations ←
    t.dialect.alterations source target (t.defaultSql table target)
  return alterations.map (.alterColumn (t.tableName table) target.name)

/-- Changes a column where it stands: its name, its type, its default
and nullability. -/
def changeInPlace (t : Target) (table : Table)
    (source target : Column) : Except RenderError (List Ddl) := do
  let retyped ←
    if source.SameType target then pure []
    else do
      let statement ← t.alterType table target
      pure [statement]
  let altered ← t.alterNullability table source target
  return (if source.name = target.name then []
      else [t.renameColumn table source.name target.name]) ++
    retyped ++ altered

/-- Drops a column and adds another in its stead. The primary key is
looked after elsewhere. -/
def replaceColumn (t : Target) (table : Table)
    (source target : Column) : Except RenderError (List Ddl) := do
  let dropped ← t.dropColumn table { source with inKey := false }
  let added ← t.addColumn table { target with inKey := false }
  return dropped ++ added

/-- Changes a column of a table, which is given after the change. -/
def changeColumn (t : Target) (table : Table) (source target : Column) :
    Except RenderError (List Ddl) := do
  table.validate
  let _ ← t.columnType target
  let changed ←
    if source.autoNumbered = target.autoNumbered then
      t.changeInPlace table source target
    else t.replaceColumn table source target
  let indexes := table.indexesOn [source.name, target.name]
  let key := table.primaryKey
  let otherKeyColumn := key.any fun n => !target.IsNamed n
  return indexes.flatMap (t.dropIndex table) ++
    (if source.inKey || (target.inKey && otherKeyColumn) then
      [t.dropKey table] else []) ++
    changed ++
    (if source.inKey || target.inKey then t.addKey table key else []) ++
    indexes.map (t.createIndex table)

/-- The statements that bring a schema change about. -/
def planChange (t : Target) :
    SchemaChange → Except RenderError (List Ddl)
  | .addTable table => t.deployTable table
  | .removeTable table => t.dropTable table
  | .renameTable source target => t.renameTable source target
  | .addColumn table column => t.addColumn table column
  | .changeColumn table source target =>
      t.changeColumn table source target
  | .removeColumn table column => t.dropColumn table column
  | .addIndex table index => do
      table.validate
      return t.addIndex table index
  | .removeIndex table index => do
      checkTableName table.name
      return t.dropIndex table index
  | .renameIndex table source target =>
      t.renameIndex table source target
  | .changePrimaryKey table source target =>
      t.changeKey table source target
  | .removeView view => t.dropView view

end Target

end SchemaEvolution

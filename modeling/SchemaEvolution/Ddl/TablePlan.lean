import SchemaEvolution.Ddl.Target

/-!
# `SchemaEvolution.Ddl.TablePlan`: tables, keys, indexes and views

The statements that create, drop, empty and rename tables, replace
primary keys and drop views, in the order in which they have to run.

* `resolveIndexRename_isSome`: an index rename needs one of the two
  names on the table.
-/

set_option autoImplicit false

namespace SchemaEvolution

/-- Which of its two names an index has on the table at hand. -/
inductive RenameDirection where
  | afterRename
  | beforeRename
deriving DecidableEq

/-- The two sides of the renaming of an index. -/
structure IndexRename where
  existing : Index
  replacement : Index
  direction : RenameDirection
deriving DecidableEq

/-- Both sides of the renaming of an index, from a table that has it
under either name. The new name is looked for first. -/
def resolveIndexRename (table : Table) (source target : String) :
    Except RenderError IndexRename :=
  match table.index? target with
  | some i => .ok ⟨i.renamed source, i, .afterRename⟩
  | none =>
      match table.index? source with
      | some i => .ok ⟨i, i.renamed target, .beforeRename⟩
      | none => .error (.indexNotFound table.name source target)

/-- An index rename needs one of the two names on the table. -/
theorem resolveIndexRename_isSome (table : Table)
    (source target : String) :
    (∃ r, resolveIndexRename table source target = .ok r) ↔
      (table.index? target).isSome ∨ (table.index? source).isSome := by
  unfold resolveIndexRename
  cases table.index? target <;> cases table.index? source <;> simp

namespace Target

/-! ### Sequences -/

/-- Creates the sequences behind the autonumbered columns. -/
def createSequences (t : Target) (table : Table) (columns : List Column) :
    List Ddl :=
  (columns.filter Column.autoNumbered).flatMap fun c =>
    t.dialect.createSequence (t.sequence table c) c.firstNumber

/-- Drops the sequences behind the autonumbered columns. -/
def dropSequences (t : Target) (table : Table) (columns : List Column) :
    List Ddl :=
  (columns.filter Column.autoNumbered).map fun c =>
    .dropSequence (t.sequence table c)

/-! ### Tables and views -/

/-- The definitions of columns. -/
def columnDefinitions (t : Target) (table : Table) :
    List Column → Except RenderError (List ColumnDefinition)
  | [] => .ok []
  | c :: rest => do
      let definition ← t.columnDefinition table c
      let definitions ← t.columnDefinitions table rest
      return definition :: definitions

/-- Creates a table without anything around it. -/
def createTable (t : Target) (table : Table) :
    Except RenderError Ddl := do
  let definitions ← t.columnDefinitions table table.columns
  return .createTable (t.tableName table) table.temporary definitions
    table.primaryKey

/-- Creates a valid table: its sequences, the table, its indexes. -/
def deployTable (t : Target) (table : Table) :
    Except RenderError (List Ddl) := do
  table.validate
  let created ← t.createTable table
  return t.createSequences table table.columns ++ [created] ++
    table.indexes.flatMap (t.dialect.addIndex (t.tableName table))

/-- Drops a table: what is left of its indexes, its sequences, the
table. -/
def dropTable (t : Target) (table : Table) :
    Except RenderError (List Ddl) := do
  checkTableName table.name
  let name := t.tableName table
  return table.indexes.flatMap (t.dialect.releaseIndex name) ++
    t.dropSequences table table.columns ++ [.dropTable name]

/-- Drops a view. -/
def dropView (t : Target) (view : View) :
    Except RenderError (List Ddl) := do
  checkTableName view.name
  return [.dropView (t.viewName view)]

/-- Empties a table at once. -/
def truncateTable (t : Target) (table : Table) :
    Except RenderError (List Ddl) := do
  checkTableName table.name
  return [.truncateTable (t.tableName table)]

/-- Empties a table row by row. -/
def deleteRows (t : Target) (table : Table) :
    Except RenderError (List Ddl) := do
  checkTableName table.name
  return [.deleteRows (t.tableName table)]

/-! ### Primary keys -/

/-- Drops the primary key of a table. -/
def dropKey (t : Target) (table : Table) : Ddl :=
  .dropKey (t.tableName table)

/-- Adds the primary key of a table, unless it has no columns. -/
def addKey (t : Target) (table : Table) (columns : List String) :
    List Ddl :=
  if columns.isEmpty then [] else [.addKey (t.tableName table) columns]

/-- Replaces the primary key of a table. -/
def changeKey (t : Target) (table : Table)
    (source target : List String) : Except RenderError (List Ddl) := do
  checkTableName table.name
  return (if source.isEmpty then [] else [t.dropKey table]) ++
    t.addKey table target

/-- Renames a table. Its key is dropped under the old name and added
under the new one. -/
def renameTable (t : Target) (source target : Table) :
    Except RenderError (List Ddl) := do
  checkTableName source.name
  checkTableName target.name
  return (if source.primaryKey.isEmpty then [] else [t.dropKey source]) ++
    [.renameTable (t.tableName source) (t.tableName target)] ++
    t.addKey target target.primaryKey

/-! ### Indexes -/

/-- Creates an index of a table. -/
def createIndex (t : Target) (table : Table) (i : Index) : Ddl :=
  .createIndex (t.tableName table) i

/-- Adds an index to a table that is there. -/
def addIndex (t : Target) (table : Table) (i : Index) : List Ddl :=
  t.dialect.addIndex (t.tableName table) i

/-- Drops an index of a table. -/
def dropIndex (t : Target) (table : Table) (i : Index) : List Ddl :=
  t.dialect.dropIndex (t.tableName table) i

/-- Drops an index under its old name and creates it under the new
one. -/
def renameIndex (t : Target) (table : Table) (source target : String) :
    Except RenderError (List Ddl) := do
  let rename ← resolveIndexRename table source target
  return t.dropIndex table rename.existing ++
    [t.createIndex table rename.replacement]

end Target

end SchemaEvolution

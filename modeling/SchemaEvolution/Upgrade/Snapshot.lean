import SchemaEvolution.Schema.Change
import SchemaEvolution.Upgrade.Step

/-!
# `SchemaEvolution.Upgrade.Snapshot`: the schema an upgrade has reached

A snapshot holds the tables and the names of the views. Tables and
views are found by name with case aside, tables and views apart. An
edit either fails, or gives the schema change it amounts to and the
snapshot after it.
-/

set_option autoImplicit false

namespace SchemaEvolution

open SchemaEvolution.Text

/-- The tables and views that an upgrade knows of. -/
structure Snapshot where
  tables : List Table := []
  views : List String := []
deriving BEq

namespace Snapshot

/-- The first table called `name`, case aside. -/
def table? (s : Snapshot) (name : String) : Option Table :=
  s.tables.find? fun t => SameName t.name name

/-- The first view called `name`, case aside. -/
def view? (s : Snapshot) (name : String) : Option String :=
  s.views.find? fun v => SameName v name

/-- The table that an edit is about. -/
def findTable (s : Snapshot) (name : String) :
    Except UpgradeError Table :=
  match s.table? name with
  | some t => .ok t
  | none => .error (.unknownTable name)

/-- The column that an edit is about. -/
def findColumn (t : Table) (name : String) :
    Except UpgradeError Column :=
  match t.column? name with
  | some c => .ok c
  | none => .error (.unknownColumn t.name name)

/-- The index that an edit is about. -/
def findIndex (t : Table) (name : String) : Except UpgradeError Index :=
  match t.index? name with
  | some i => .ok i
  | none => .error (.unknownIndex t.name name)

/-- Checks that a table is valid. -/
def checkTable (t : Table) : Except UpgradeError Unit :=
  match t.validate with
  | .ok () => .ok ()
  | .error e => .error (.dialect e)

/-- The snapshot with `after`, which has to be valid, in the place of
the table called `name`. -/
def replaceTable (s : Snapshot) (name : String) (after : Table) :
    Except UpgradeError Snapshot := do
  checkTable after
  return { s with
    tables := replaceFirst (fun t => SameName t.name name) after s.tables }

/-- Makes an edit. -/
def apply (s : Snapshot) :
    SchemaEdit → Except UpgradeError (SchemaChange × Snapshot)
  | .addTable table =>
      if (s.table? table.name).isSome then
        .error (.tableExists table.name)
      else do
        checkTable table
        return (.addTable table, { s with tables := s.tables ++ [table] })
  | .removeTable name => do
      let table ← s.findTable name
      return (.removeTable table,
        { s with tables := s.tables.eraseP fun t => SameName t.name name })
  | .renameTable source target => do
      let before ← s.findTable source
      if ¬ SameName source target ∧ (s.table? target).isSome then
        .error (.tableExists target)
      else
        let after := { before with name := target }
        let next ← s.replaceTable source after
        return (.renameTable before after, next)
  | .addColumn name column => do
      let table ← s.findTable name
      if (table.column? column.name).isSome then
        .error (.columnExists table.name column.name)
      else
        let after := table.withColumn column
        let next ← s.replaceTable name after
        return (.addColumn after column, next)
  | .changeColumn name column target => do
      let table ← s.findTable name
      let source ← findColumn table column
      if ¬ target.IsNamed column ∧ (table.column? target.name).isSome then
        .error (.columnExists table.name target.name)
      else
        let after := table.withColumnReplaced column target
        let next ← s.replaceTable name after
        return (.changeColumn after source target, next)
  | .removeColumn name column => do
      let table ← s.findTable name
      let removed ← findColumn table column
      let after := table.withoutColumn column
      let next ← s.replaceTable name after
      return (.removeColumn after removed, next)
  | .addIndex name index => do
      let table ← s.findTable name
      if (table.index? index.name).isSome then
        .error (.indexExists table.name index.name)
      else
        let after := table.withIndex index
        let next ← s.replaceTable name after
        return (.addIndex after index, next)
  | .removeIndex name index => do
      let table ← s.findTable name
      let removed ← findIndex table index
      let after := table.withoutIndex index
      let next ← s.replaceTable name after
      return (.removeIndex after removed, next)
  | .renameIndex name source target => do
      let table ← s.findTable name
      let existing ← findIndex table source
      if (table.index? target).isSome then
        .error (.indexExists table.name target)
      else
        let after :=
          (table.withoutIndex source).withIndex (existing.renamed target)
        let next ← s.replaceTable name after
        return (.renameIndex after source target, next)
  | .changePrimaryKey name columns => do
      let table ← s.findTable name
      match columns.find? fun n => (table.column? n).isNone with
      | some missing => .error (.unknownColumn table.name missing)
      | none =>
          let after := table.withPrimaryKey columns
          let next ← s.replaceTable name after
          return (.changePrimaryKey after table.primaryKey
            after.primaryKey, next)
  | .removeView name =>
      match s.view? name with
      | some view =>
          .ok (.removeView ⟨view, none⟩,
            { s with views := s.views.eraseP fun v => SameName v name })
      | none => .error (.unknownView name)

/-- Checks the tables one after the other: each is valid, and its name
is not that of a table before it. -/
def checkTables (seen : List String) :
    List Table → Except UpgradeError Unit
  | [] => .ok ()
  | t :: rest => do
      checkTable t
      if seen.any fun n => SameName n t.name then
        .error (.tableExists t.name)
      else checkTables (t.name :: seen) rest

/-- Checks that the tables are valid and have names of their own. -/
def validate (s : Snapshot) : Except UpgradeError Unit :=
  checkTables [] s.tables

end Snapshot

end SchemaEvolution

import SchemaEvolution.Dialect.ExprText
import SchemaEvolution.Schema.Basic
import SchemaEvolution.Schema.Change

/-!
# `SchemaEvolution.Ddl.Target`: the database that statements are for

A `Target` is a dialect and a configuration. It settles how objects
are named in schema statements, how columns are defined and how each
`Ddl` is worded.

* `defaultLiteral_of_none`: a column without a default has none.
-/

set_option autoImplicit false

namespace SchemaEvolution

open SchemaEvolution.Calendar
open SchemaEvolution.Text

/-- The database that statements are written for. -/
structure Target where
  dialect : Dialect
  config : Config := {}

/-- Checks that a table or view has a name. -/
def checkTableName (name : String) : Except RenderError Unit :=
  if isBlank name then .error .blankTableName else .ok ()

/-! ### Defaults -/

/-- The truth value that a default spells. -/
def booleanDefault? (value : String) : Option Bool :=
  let v := foldCase value
  if v = "true" ∨ v = "1" ∨ v = "y" then some true
  else if v = "false" ∨ v = "0" ∨ v = "n" then some false
  else none

/-- The number that a default spells: an integer if one is asked for
and it is in range, else a decimal. -/
def numberDefault? (integer : Bool) (value : String) : Option Literal := do
  let n ← Numeral.parse? value
  match n.toInt64? with
  | some i => if integer then some (.integer i) else some (.decimal value)
  | none => some (.decimal value)

/-- The default of a column as a constant of the column's type. A date
that cannot be read stays a string. -/
def defaultLiteral (table : Table) (c : Column) :
    Except RenderError (Option Literal) :=
  match c.default? with
  | none => .ok none
  | some value =>
      let orInvalid (l : Option Literal) :
          Except RenderError (Option Literal) :=
        match l with
        | some l => .ok (some l)
        | none => .error (.invalidDefault table.name c.name value)
      match c.type with
      | .integer | .bigInteger => orInvalid (numberDefault? true value)
      | .decimal => orInvalid (numberDefault? false value)
      | .boolean => orInvalid ((booleanDefault? value).map .boolean)
      | .date =>
          match Date.parse? value with
          | some d => .ok (some (.date d))
          | none => .ok (some (.string value))
      | .string | .clob | .blob | .null => .ok (some (.string value))

/-- A column without a default has none. -/
theorem defaultLiteral_of_none {table : Table} {c : Column}
    (h : c.default? = none) : defaultLiteral table c = .ok none := by
  simp [defaultLiteral, h]

namespace Target

/-- The default of a column as it is written. -/
def defaultSql (t : Target) (table : Table) (c : Column) :
    Except RenderError (Option String) := do
  match ← defaultLiteral table c with
  | some l => return some (← t.dialect.literalText l)
  | none => return none

/-! ### Names -/

/-- What stands before the objects of the configured schema. -/
def schemaQualifier (t : Target) : String :=
  t.dialect.schemaQualifier t.config.schema?

/-- What stands before a table in a schema statement. -/
def tableQualifier (t : Target) (table : Table) : String :=
  t.dialect.tableQualifier t.schemaQualifier table

/-- A table in a schema statement. -/
def tableName (t : Target) (table : Table) : ObjectName :=
  ⟨t.tableQualifier table, table.name⟩

/-- The sequence behind an autonumbered column. -/
def sequence (t : Target) (table : Table) (c : Column) : ObjectName :=
  ⟨t.schemaQualifier, t.dialect.sequenceName table c⟩

/-- A view in a schema statement. -/
def viewName (t : Target) (v : View) : ObjectName :=
  ⟨t.schemaQualifier, v.name⟩

/-! ### Columns -/

/-- The type of a column. -/
def columnType (t : Target) (c : Column) : Except RenderError String :=
  t.dialect.columnType c.type c.width c.scale

/-- What makes a sequence feed a column. -/
def numberingClause (t : Target) (table : Table) (c : Column) : String :=
  t.dialect.numberingClause (t.sequence table c) c

/-- A column as it stands in a statement that creates it. The sequence
of an autonumbered column takes the place of its default. -/
def columnDefinition (t : Target) (table : Table) (c : Column) :
    Except RenderError ColumnDefinition := do
  let type ← t.columnType c
  let default? ←
    if c.autoNumbered then pure none else t.defaultSql table c
  return {
    name := c.name
    type := type
    default? := default?
    notNull := !c.nullable
    numbering? :=
      if c.autoNumbered then some (t.numberingClause table c) else none }

/-! ### Wording -/

/-- The text of a schema statement. -/
def text (t : Target) : Ddl → String
  | .createSequence sequence start =>
      "CREATE SEQUENCE " ++ sequence.text ++ " START WITH " ++
        toString start.toInt
  | .dropSequence sequence => t.dialect.dropSequenceText sequence
  | .createTable table temporary columns key =>
      "CREATE " ++ (if temporary then "TEMPORARY " else "") ++ "TABLE " ++
        table.text ++ " (" ++
        ", ".intercalate (columns.map ColumnDefinition.text) ++
        (if key.isEmpty then ""
         else ", " ++ t.dialect.keyClause table.base key) ++ ")"
  | .dropTable table => "DROP TABLE " ++ table.text
  | .renameTable source target =>
      "ALTER TABLE " ++ source.text ++ " RENAME TO " ++ target.text
  | .truncateTable table => t.dialect.truncateText table
  | .deleteRows table => t.dialect.deleteRowsText table
  | .addColumn table column =>
      "ALTER TABLE " ++ table.text ++ " ADD COLUMN " ++ column.text
  | .dropColumn table column =>
      "ALTER TABLE " ++ table.text ++ " DROP COLUMN " ++ column
  | .renameColumn table source target =>
      t.dialect.renameColumnText table source target
  | .alterType table column type =>
      t.dialect.alterTypeText table column type
  | .alterColumn table column alteration =>
      "ALTER TABLE " ++ table.text ++ " ALTER COLUMN " ++ column ++ " " ++
        alteration.text
  | .fillColumn table column value =>
      "UPDATE " ++ table.text ++ " SET " ++ column ++ " = " ++ value
  | .dropKey table => t.dialect.dropKeyText table
  | .addKey table columns =>
      "ALTER TABLE " ++ table.text ++ " ADD " ++
        t.dialect.keyClause table.base columns
  | .createIndex table index => t.dialect.createIndexText table index
  | .dropIndex table index => "DROP INDEX " ++ table.qualifier ++ index
  | .clearIndex table index =>
      "DROP INDEX IF EXISTS " ++ table.qualifier ++ index
  | .dropView view => t.dialect.dropViewText view
  | .vendor text => text

/-- The texts of schema statements. -/
def texts (t : Target) (statements : List Ddl) : List String :=
  statements.map t.text

end Target

end SchemaEvolution

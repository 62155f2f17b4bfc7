import SchemaEvolution.Ddl.Basic
import SchemaEvolution.Query.Statement
import SchemaEvolution.Schema.Table

/-!
# `SchemaEvolution.Dialect.Basic`: what sets one SQL apart from another

A `Dialect` is a record of rules, each for one small part of a
statement. A rule is given the parts it is built from already written,
so a dialect that changes one rule sees the change in every statement
that contains such a part. Rules come in three groups: names, data
(expressions and queries) and schema statements.
-/

set_option autoImplicit false

namespace SchemaEvolution

/-- How objects are named. -/
structure NamingRules where
  /-- What stands before the objects of the configured schema. -/
  schemaQualifier : Option String → String
  /-- What stands before a table in a schema statement, given what
  stands before the objects of the configured schema. -/
  tableQualifier : String → Table → String
  /-- What stands before a table whose schema a statement gives. -/
  givenQualifier : String → String
  /-- The name that a temporary table is deployed under. -/
  temporaryName : String → String
  /-- The sequence behind an autonumbered column. -/
  sequenceName : Table → Column → String

/-- An operand of arithmetic: its text, and whether it is arithmetic
itself. -/
structure Operand where
  text : String
  isArithmetic : Bool

/-- How a dialect writes rows over those with the same key. -/
inductive UpsertForm where
  /-- A `MERGE` that states what to match on. -/
  | merge
  /-- An `INSERT` that leaves the matching to a unique index. -/
  | insertOnDuplicateKey
deriving DecidableEq

/-- How expressions and statements on data are written. -/
structure DataRules where
  /-- The text of a string inside its quotes. -/
  escape : String → String
  /-- A constant, given the rule for strings. -/
  literal : (String → String) → Literal → Except RenderError String
  field : FieldRef → String
  /-- The text of a call from the texts of its arguments, given the
  name of the dialect. -/
  call : String → FunctionKind →
    Except RenderError (List String → String)
  arithmetic : Operator → Operand → Operand → String
  concat : List String → String
  /-- A type with its width and scale. -/
  columnType : DataType → UInt32 → UInt32 → Except RenderError String
  sortKey : String → SortDirection → Option NullPlacement → String
  /-- What declares the escape character of a `LIKE`. -/
  likeSuffix : String
  /-- What a query without a table reads from. -/
  dummySource : String
  /-- A cheap query that shows that a connection is alive. -/
  connectionTest : String
  upsert : UpsertForm

/-- How schema statements are chosen and worded. -/
structure SchemaRules where
  /-- What makes a sequence feed a column. -/
  numberingClause : ObjectName → Column → String
  /-- The alterations from one column to another, given the default of
  the other one as it would be written. -/
  alterations : Column → Column → Except RenderError (Option String) →
    Except RenderError (List ColumnAlteration)
  /-- What follows the addition of a column, given its default as it
  would be written. -/
  columnAdded : ObjectName → Column →
    Except RenderError (Option String) → Except RenderError (List Ddl)
  /-- What follows the removal of a column. -/
  columnDropped : ObjectName → Column → List Ddl
  createSequence : ObjectName → Int64 → List Ddl
  addIndex : ObjectName → Index → List Ddl
  dropIndex : ObjectName → Index → List Ddl
  /-- What is done about an index before its table is dropped. -/
  releaseIndex : ObjectName → Index → List Ddl
  /-- The primary key of the table of this name. -/
  keyClause : String → List String → String
  dropKeyText : ObjectName → String
  dropSequenceText : ObjectName → String
  truncateText : ObjectName → String
  deleteRowsText : ObjectName → String
  renameColumnText : ObjectName → String → String → String
  alterTypeText : ObjectName → String → String → String
  createIndexText : ObjectName → Index → String
  dropViewText : ObjectName → String

/-- A dialect of SQL. -/
structure Dialect extends NamingRules, DataRules, SchemaRules where
  name : String

end SchemaEvolution

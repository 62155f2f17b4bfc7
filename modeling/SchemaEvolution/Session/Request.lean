import SchemaEvolution.Session.StatementText

/-!
# `SchemaEvolution.Session.Request`: everything a session is asked

A request is a question, which the session answers and stays as it is,
a schema change, or a direct note about a temporary table.

One of the questions is about autonumber series. A series can be kept in a
table with one row for each series: its name and the next number. The
series of a data table is named by the table's name up to its last
underscore. Nothing is written for the series of the numbers themselves.
-/

set_option autoImplicit false

namespace SchemaEvolution

open SchemaEvolution.Text

/-! ### Tables of autonumber series -/

/-- A table that keeps autonumber series. -/
structure SeriesTable where
  name : String
  nameColumn : String
  valueColumn : String
deriving DecidableEq

/-- The series of a table: its name up to the last underscore. -/
def seriesName (table : String) : String :=
  match table.toList.reverse.dropWhile (· ≠ '_') with
  | [] => table
  | _ :: front => String.ofList front.reverse

/-- The query for the number that follows the highest one in use. -/
def nextNumber (data : TableRef) (column : String) : Select :=
  let highest := Expr.call .max [.ofName column]
  let next := Expr.arithmetic .plus highest (.literal (.integer 1))
  { fields :=
      [.aliased (.call .coalesce [next, .literal (.integer 1)])
        "CurrentValue"]
    source := some data }

namespace Session

/-- Raises a series by a `MERGE`. -/
def mergeSeriesText (s : Session) (series existing : String)
    (table : SeriesTable) : String :=
  let here := table.name ++ "."
  let there := mergeSource ++ "."
  "MERGE INTO " ++ s.target.schemaQualifier ++ table.name ++
    " USING (SELECT '" ++ s.dialect.escape series ++ "' AS " ++
    table.nameColumn ++ ", (" ++ existing ++ ") AS " ++
    table.valueColumn ++ s.dialect.dummySource ++ ") " ++ mergeSource ++
    " ON (" ++ here ++ table.nameColumn ++ " = " ++ there ++
    table.nameColumn ++ ") WHEN MATCHED AND " ++ there ++
    table.valueColumn ++ " > " ++ here ++ table.valueColumn ++
    " THEN UPDATE SET " ++ table.valueColumn ++ " = " ++ there ++
    table.valueColumn ++ " WHEN NOT MATCHED THEN INSERT (" ++
    table.nameColumn ++ ", " ++ table.valueColumn ++ ") VALUES (" ++
    there ++ table.nameColumn ++ ", " ++ there ++ table.valueColumn ++ ")"

/-- Raises a series by an insert that updates on a duplicate key. -/
def upsertSeriesText (s : Session) (series existing : String)
    (table : SeriesTable) : String :=
  "INSERT INTO " ++ s.target.schemaQualifier ++ table.name ++ " (" ++
    table.nameColumn ++ ", " ++ table.valueColumn ++ ") VALUES('" ++
    s.dialect.escape series ++ "', (" ++ existing ++
    ")) ON DUPLICATE KEY UPDATE " ++ table.valueColumn ++
    " = GREATEST(" ++ table.valueColumn ++ ", VALUES(" ++
    table.valueColumn ++ "))"

/-- The statement that raises the series of a table to one past the
highest number in use, and never lowers it. -/
def raiseSeries (s : Session) (data : TableRef) (column : String)
    (table : SeriesTable) : Except RenderError (List String) := do
  checkTableName data.name
  checkTableName table.name
  let series := seriesName data.name
  if series = "autonumber" then return []
  else
    let existing ← s.selectText (nextNumber data column)
    return [match s.dialect.upsert with
      | .merge => s.mergeSeriesText series existing table
      | .insertOnDuplicateKey =>
          s.upsertSeriesText series existing table]

end Session

/-! ### Requests -/

/-- A question about how something is written. -/
inductive Question where
  | dialectName
  | schemaQualifier
  | likeSuffix
  | dummySource
  | connectionTest
  | schemaQualifierOf (table : Table)
  | tableName (table : Table)
  | qualifier (table : TableRef)
  | temporaryName (name : String)
  | sequenceName (table : Table) (column : Column)
  | truncateTable (table : Table)
  | deleteRows (table : Table)
  | columnType (type : DataType) (width scale : UInt32)
  | renameColumn (table : Table) (source target : String)
  | alterType (table : Table) (column : Column)
  | alterNullability (table : Table) (source target : Column)
  | createSequence (table : Table) (column : Column)
  | dropSequence (table : Table) (column : Column)
  | numberingClause (table : Table) (column : Column)
  | raiseSeries (data : TableRef) (column : String) (table : SeriesTable)
  | keyClause (table : Table) (columns : List String)
  | dropKey (table : Table)
  | addKey (table : Table) (columns : List String)
  | createIndex (table : Table) (index : Index)
  | addIndex (table : Table) (index : Index)
  | dropIndex (table : Table) (index : Index)
  | releaseIndex (table : Table) (index : Index)
  | escape (text : String)
  | literal (l : Literal)
  | expr (e : Expr)
  | criterion (c : Criterion)
  | sortKey (k : SortKey)
  | statement (s : Statement)
  | isTemporary (name : String)

/-- What a session is asked. -/
inductive Request where
  | ask (q : Question)
  | change (c : SchemaChange)
  | register (name : String)
  | unregister (name : String)

/-- What a session answers. -/
inductive Answer where
  | text (s : String)
  | texts (statements : List String)
  | flag (b : Bool)
deriving DecidableEq

namespace Session

/-- The answer to a question. -/
def reply (s : Session) : Question → Except RenderError Answer
  | .dialectName => .ok (.text s.dialect.name)
  | .schemaQualifier => .ok (.text s.target.schemaQualifier)
  | .likeSuffix => .ok (.text s.dialect.likeSuffix)
  | .dummySource => .ok (.text s.dialect.dummySource)
  | .connectionTest => .ok (.text s.dialect.connectionTest)
  | .schemaQualifierOf table => .ok (.text (s.target.tableQualifier table))
  | .tableName table => .ok (.text (s.target.tableName table).text)
  | .qualifier table => .ok (.text (s.qualifier table))
  | .temporaryName name => .ok (.text (s.dialect.temporaryName name))
  | .sequenceName table c => .ok (.text (s.dialect.sequenceName table c))
  | .truncateTable table => do
      return .texts (s.target.texts (← s.target.truncateTable table))
  | .deleteRows table => do
      return .texts (s.target.texts (← s.target.deleteRows table))
  | .columnType type width scale => do
      return .text (← s.dialect.columnType type width scale)
  | .renameColumn table source target =>
      .ok (.text (s.target.text (s.target.renameColumn table source target)))
  | .alterType table c => do
      return .text (s.target.text (← s.target.alterType table c))
  | .alterNullability table source target => do
      return .texts
        (s.target.texts (← s.target.alterNullability table source target))
  | .createSequence table c =>
      .ok (.texts (s.target.texts
        (s.dialect.createSequence (s.target.sequence table c)
          c.firstNumber)))
  | .dropSequence table c =>
      .ok (.texts [s.target.text (.dropSequence (s.target.sequence table c))])
  | .numberingClause table c =>
      .ok (.text (s.target.numberingClause table c))
  | .raiseSeries data column table => do
      return .texts (← s.raiseSeries data column table)
  | .keyClause table columns =>
      .ok (.text (s.dialect.keyClause table.name columns))
  | .dropKey table => .ok (.text (s.target.text (s.target.dropKey table)))
  | .addKey table columns =>
      .ok (.text (s.target.text (.addKey (s.target.tableName table) columns)))
  | .createIndex table index =>
      .ok (.text (s.target.text (s.target.createIndex table index)))
  | .addIndex table index =>
      .ok (.texts (s.target.texts (s.target.addIndex table index)))
  | .dropIndex table index =>
      .ok (.texts (s.target.texts (s.target.dropIndex table index)))
  | .releaseIndex table index =>
      .ok (.texts (s.target.texts
        (s.dialect.releaseIndex (s.target.tableName table) index)))
  | .escape text => .ok (.text (s.dialect.escape text))
  | .literal l => do return .text (← s.dialect.literalText l)
  | .expr e => do return .text (← s.dialect.exprText e)
  | .criterion c => do return .text (← s.dialect.criterionText c)
  | .sortKey k => do return .text (← s.dialect.sortKeyText k)
  | .statement st => do return .text (← s.statementText st)
  | .isTemporary name => .ok (.flag (name ∈ s.temporary))

/-- The answer to a request, and the session after it. A note about a
temporary table is answered by whether it is news. -/
def answer (s : Session) (r : Request) :
    Except RenderError Answer × Session :=
  match r with
  | .ask q => (s.reply q, s)
  | .change c =>
      let (result, next) := s.change c
      (result.map fun statements => .texts (s.target.texts statements),
        next)
  | .register name =>
      (.ok (.flag (name ∉ s.temporary)),
        { s with temporary := s.temporary.register name })
  | .unregister name =>
      (.ok (.flag (name ∈ s.temporary)),
        { s with temporary := s.temporary.unregister name })

end Session

end SchemaEvolution

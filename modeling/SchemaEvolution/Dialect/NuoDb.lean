import SchemaEvolution.Dialect.Ansi
import SchemaEvolution.Text.UpperCase

/-!
# `SchemaEvolution.Dialect.NuoDb`: the SQL of NuoDB

What NuoDB writes otherwise than the standard:

* Names in schema statements are in upper case, and temporary tables
  lie in no schema.
* A backslash in a string is spliced in by a `TRIM`, because the
  database takes one before a quote for an escape.
* Arithmetic is cast back to a number, and decimals with a point are
  cast to their own size.
* Merges are inserts that update on a duplicate key.
* A default reaches the rows that are there only when it comes with
  `NOT NULL`, so a nullable column passes through that state.
-/

set_option autoImplicit false

namespace SchemaEvolution

open SchemaEvolution.Text

namespace NuoDb

/-- What the names of temporary tables begin with. -/
def temporaryMark : String := "TEMP_"

/-! ### Expressions -/

/-- What stands in for a backslash: the end of the string, a trimmed
backslash, and a new string. -/
def backslashSplice : List Char := "'||TRIM('\\ ')||'".toList

/-- A quote is written twice and a backslash is spliced in. -/
def escape (s : String) : String :=
  String.ofList (s.toList.flatMap fun c =>
    if c = '\'' then ['\'', '\'']
    else if c = '\\' then backslashSplice
    else [c])

/-- A constant. A decimal with a point is cast to the type that has
exactly its digits. -/
def literal (escape : String → String) (l : Literal) :
    Except RenderError String :=
  match l with
  | .date d => .ok ("DATE('" ++ d.text ++ "')")
  | .decimal text =>
      match Numeral.parse? text with
      | none => .error (.invalidDecimal text)
      | some n =>
          if n.scale = 0 then .ok text
          else
            .ok ("CAST ('" ++ escape text ++ "' AS DECIMAL(" ++
              toString n.precision ++ "," ++ toString n.scale ++ "))")
  | l => Ansi.literal escape l

/-- The whole months from one date to another. A month counts once its
day of the month is reached; the last day of a month reaches every
later day. -/
def monthsBetween (later earlier : String) : String :=
  "((EXTRACT(YEAR FROM " ++ later ++ ") - EXTRACT(YEAR FROM " ++
    earlier ++ ")) * 12 + (EXTRACT(MONTH FROM " ++ later ++
    ") - EXTRACT(MONTH FROM " ++ earlier ++ ")) + CASE WHEN " ++
    later ++ " > " ++ earlier ++ " THEN CASE WHEN EXTRACT(DAY FROM " ++
    later ++ ") >= EXTRACT(DAY FROM " ++ earlier ++
    ") THEN 0 WHEN EXTRACT(MONTH FROM " ++ later ++
    ") <> EXTRACT(MONTH FROM " ++ later ++
    " + 1) THEN 0 ELSE -1 END ELSE CASE WHEN EXTRACT(MONTH FROM " ++
    earlier ++ ") <> EXTRACT(MONTH FROM " ++ earlier ++
    " + 1) THEN 0 WHEN EXTRACT(DAY FROM " ++ earlier ++
    ") >= EXTRACT(DAY FROM " ++ later ++ ") THEN 0 ELSE 1 END END)"

/-- What strings are padded from. -/
def padding : String := "                    "

/-- A string brought to a length: padded in front, or cut. -/
def leftPad (value length character : String) : String :=
  let missing := length ++ " - LENGTH(CAST(" ++ value ++ " AS STRING))"
  "CASE WHEN " ++ missing ++ " > 0 THEN SUBSTRING(REPLACE('" ++
    padding ++ "', ' ', " ++ character ++ "), 1, " ++ missing ++
    ") || " ++ value ++ " ELSE SUBSTRING(" ++ value ++ ", 1, " ++
    length ++ ") END"

/-- The last day of the month of a date. -/
def lastDayOfMonth (date : String) : String :=
  "DATE_SUB(DATE_ADD(DATE_SUB(" ++ date ++ ", INTERVAL DAY(" ++ date ++
    ")-1 DAY), INTERVAL 1 MONTH), INTERVAL 1 DAY)"

/-- The text of a call. -/
def call (dialect : String) (kind : FunctionKind) :
    Except RenderError (List String → String) :=
  match kind with
  | .now => .ok fun _ => "CURRENT_TIMESTAMP()"
  | .daysBetween =>
      .ok (binary fun later earlier =>
        "CAST(" ++ later ++ " AS DATE) - CAST(" ++ earlier ++
          " AS DATE)")
  | .monthsBetween => .ok (binary monthsBetween)
  | .addDays =>
      .ok (binary fun date days =>
        "DATE_ADD(" ++ date ++ ", INTERVAL " ++ days ++ " DAY)")
  | .addMonths =>
      .ok (binary fun date months =>
        "DATE_ADD(" ++ date ++ ", INTERVAL " ++ months ++ " MONTH)")
  | .yyyymmddToDate =>
      .ok (unary fun value =>
        "DATE_FROM_STR(" ++ value ++ ", 'yyyyMMdd')")
  | .dateToYyyymmdd =>
      .ok (unary fun date =>
        "CAST(DATE_TO_STR(" ++ date ++ ", 'yyyyMMdd') AS INT)")
  | .dateToYyyymmddHhmmss =>
      .ok (unary fun date =>
        "CAST(DATE_TO_STR(" ++ date ++
          ", 'yyyyMMddHHmmss') AS BIGINT)")
  | .leftTrim => .ok (callText "LTRIM")
  | .rightTrim => .ok (callText "RTRIM")
  | .leftPad => .ok (ternary leftPad)
  | .randomString =>
      .ok (unary fun length =>
        "SUBSTRING(CAST(RAND() AS STRING), 3, " ++ length ++ ")")
  | .lastDayOfMonth => .ok (unary lastDayOfMonth)
  | kind => Ansi.call dialect kind

/-- Arithmetic, cast back to a number. -/
def arithmetic (op : Operator) (left right : Operand) : String :=
  "CAST((" ++ left.text ++ " " ++ op.symbol ++ " " ++ right.text ++
    ") AS NUMBER)"

/-- The parts behind one another, where `null` counts as empty. -/
def concat (parts : List String) : String :=
  " || ".intercalate (parts.map fun p => "COALESCE(" ++ p ++ ",'')")

/-- A type with its width and scale. -/
def columnType (type : DataType) (width scale : UInt32) :
    Except RenderError String :=
  match type with
  | .clob => .ok "NCLOB"
  | type => Ansi.columnType type width scale

/-- A key of a sort. The placement of nulls is a key of its own. -/
def sortKey (expr : String) (direction : SortDirection)
    (nulls : Option NullPlacement) : String :=
  let entry := expr ++ " " ++ direction.keyword
  match nulls with
  | some .first => expr ++ " IS NOT NULL, " ++ entry
  | some .last => expr ++ " IS NULL, " ++ entry
  | none => entry

/-! ### Schema statements -/

/-- A new default goes in as `NOT NULL DEFAULT`, and the column is made
nullable again if it should be. A column without a default becomes
`NOT NULL` by way of the default 0. -/
def alterations (source target : Column)
    (default? : Except RenderError (Option String)) :
    Except RenderError (List ColumnAlteration) := do
  let defaultChanges := source.default? ≠ target.default?
  let nullabilityChanges := source.nullable ≠ target.nullable
  match ← default? with
  | some value =>
      if defaultChanges ∨ (nullabilityChanges ∧ ¬ target.nullable) then
        return .notNullDefault value ::
          (if target.nullable then [.null] else [])
      else if nullabilityChanges then return [.null]
      else return []
  | none =>
      if defaultChanges then
        return [.dropDefault, if target.nullable then .null else .notNull]
      else if nullabilityChanges then
        return if target.nullable then [.null]
          else [.notNullDefault "0", .dropDefault]
      else return []

/-- The rows of a new nullable column are given its default. -/
def columnAdded (table : ObjectName) (c : Column)
    (default? : Except RenderError (Option String)) :
    Except RenderError (List Ddl) := do
  if c.nullable then
    match ← default? with
    | some value => return [.fillColumn table c.name value]
    | none => return []
  else return []

/-- Creates an index of a table. -/
def createIndexText (table : ObjectName) (i : Index) : String :=
  "CREATE " ++ Ansi.uniqueText i ++ "INDEX " ++ i.name ++ " ON " ++
    table.text ++ " (" ++ ",".intercalate i.columns ++ ")"

end NuoDb

/-- The SQL of NuoDB. -/
def Dialect.nuoDb : Dialect :=
  { Dialect.ansi with
    name := "NuoDB"
    tableQualifier := fun qualifier table =>
      if table.temporary then "" else upperCase qualifier
    givenQualifier := fun schema => upperCase schema ++ "."
    temporaryName := fun name => NuoDb.temporaryMark ++ name
    sequenceName := fun table column =>
      table.name ++ "_IDS_" ++ toString column.firstNumber.toInt
    escape := NuoDb.escape
    literal := NuoDb.literal
    call := NuoDb.call
    arithmetic := NuoDb.arithmetic
    concat := NuoDb.concat
    columnType := NuoDb.columnType
    sortKey := NuoDb.sortKey
    likeSuffix := ""
    dummySource := " FROM dual"
    connectionTest := "select 1 from dual"
    upsert := .insertOnDuplicateKey
    numberingClause := fun sequence _ =>
      "GENERATED BY DEFAULT AS IDENTITY(" ++ sequence.base ++ ")"
    alterations := NuoDb.alterations
    columnAdded := NuoDb.columnAdded
    createSequence := fun sequence start =>
      [.dropSequence sequence, .createSequence sequence start]
    addIndex := fun table index =>
      [.clearIndex table index.name, .createIndex table index]
    releaseIndex := fun table index => [.clearIndex table index.name]
    keyClause := fun _ columns =>
      "PRIMARY KEY (" ++ ", ".intercalate columns ++ ")"
    dropKeyText := fun table =>
      "DROP INDEX IF EXISTS " ++ table.qualifier ++ "\"" ++
        upperCase table.base ++ "..PRIMARY_KEY\""
    dropSequenceText := fun sequence =>
      "DROP SEQUENCE IF EXISTS " ++ sequence.text
    truncateText := fun table => "truncate table " ++ table.text
    deleteRowsText := fun table => "delete from " ++ table.text
    alterTypeText := fun table column type =>
      "ALTER TABLE " ++ table.text ++ " ALTER COLUMN " ++ column ++
        " TYPE " ++ type
    createIndexText := NuoDb.createIndexText
    dropViewText := fun view =>
      "DROP VIEW " ++ view.text ++ " IF EXISTS CASCADE" }

namespace NuoDb

end NuoDb

end SchemaEvolution

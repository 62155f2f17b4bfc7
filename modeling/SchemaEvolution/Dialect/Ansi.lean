import SchemaEvolution.Dialect.Basic

/-!
# `SchemaEvolution.Dialect.Ansi`: standard SQL

* `Ansi.call_eq_error_iff`: the only function without a standard form.
-/

set_option autoImplicit false

namespace SchemaEvolution

/-- A call written as its name and its arguments. -/
def callText (function : String) (args : List String) : String :=
  function ++ "(" ++ ", ".intercalate args ++ ")"

/-- A template of one argument. -/
def unary (f : String → String) : List String → String
  | [a] => f a
  | args => callText "" args

/-- A template of two arguments. -/
def binary (f : String → String → String) : List String → String
  | [a, b] => f a b
  | args => callText "" args

/-- A template of three arguments. -/
def ternary (f : String → String → String → String) :
    List String → String
  | [a, b, c] => f a b c
  | args => callText "" args

namespace Ansi

/-! ### Expressions -/

/-- A quote inside a string is written twice. -/
def escape (s : String) : String :=
  String.ofList (s.toList.flatMap fun c =>
    if c = '\'' then ['\'', '\''] else [c])

/-- A constant. -/
def literal (escape : String → String) (l : Literal) :
    Except RenderError String := do
  l.validate
  return match l with
    | .null => "null"
    | .string s => "'" ++ escape s ++ "'"
    | .integer i => toString i.toInt
    | .decimal text => text
    | .boolean true => "TRUE"
    | .boolean false => "FALSE"
    | .date d => "DATE '" ++ d.text ++ "'"

/-- A type with its width and scale. The type of a bare `null` is no
type of a column. -/
def columnType (type : DataType) (width scale : UInt32) :
    Except RenderError String :=
  match type with
  | .string => .ok ("VARCHAR(" ++ toString width.toNat ++ ")")
  | .decimal =>
      .ok ("DECIMAL(" ++ toString width.toNat ++ "," ++
        toString scale.toNat ++ ")")
  | .date => .ok "DATE"
  | .boolean => .ok "BOOLEAN"
  | .integer => .ok "INTEGER"
  | .bigInteger => .ok "BIGINT"
  | .blob => .ok "BLOB"
  | .clob => .ok "CLOB"
  | .null => .error (.unmappedType type)

/-- The date that the eight digits `value` spell. -/
def dateOfDigits (value : String) : String :=
  "CAST(SUBSTRING(" ++ value ++ ", 1, 4) || '-' || SUBSTRING(" ++
    value ++ ", 5, 2) || '-' || SUBSTRING(" ++ value ++
    ", 7, 2) AS DATE)"

/-- The text of a call. Random strings have no standard form. -/
def call (dialect : String) (kind : FunctionKind) :
    Except RenderError (List String → String) :=
  match kind with
  | .count =>
      .ok fun args =>
        if args.isEmpty then "COUNT(*)" else callText "COUNT" args
  | .coalesce | .isNull => .ok (callText "COALESCE")
  | .now => .ok fun _ => "CURRENT_TIMESTAMP"
  | .daysBetween =>
      .ok (binary fun later earlier =>
        "EXTRACT(DAY FROM (" ++ later ++ " - " ++ earlier ++ "))")
  | .monthsBetween => .ok (callText "MONTHS_BETWEEN")
  | .addDays =>
      .ok (binary fun date days =>
        "(" ++ date ++ " + " ++ days ++ " * INTERVAL '1' DAY)")
  | .addMonths => .ok (callText "ADD_MONTHS")
  | .yyyymmddToDate => .ok (unary dateOfDigits)
  | .dateToYyyymmdd =>
      .ok (unary fun date =>
        "CAST(TO_CHAR(" ++ date ++ ", 'YYYYMMDD') AS INTEGER)")
  | .dateToYyyymmddHhmmss =>
      .ok (unary fun date =>
        "CAST(TO_CHAR(" ++ date ++ ", 'YYYYMMDDHH24MISS') AS BIGINT)")
  | .leftTrim => .ok (unary fun s => "TRIM(LEADING ' ' FROM " ++ s ++ ")")
  | .rightTrim =>
      .ok (unary fun s => "TRIM(TRAILING ' ' FROM " ++ s ++ ")")
  | .leftPad => .ok (callText "LPAD")
  | .lastDayOfMonth => .ok (callText "LAST_DAY")
  | .randomString =>
      .error (.unsupported dialect "RANDOM_STRING has no standard form")
  | .sum | .min | .max | .average | .trim | .length | .upper | .lower
  | .floor | .modulo | .round | .substring => .ok (callText kind.name)

/-- An operand, in brackets if it is arithmetic. -/
def bracketed (o : Operand) : String :=
  if o.isArithmetic then "(" ++ o.text ++ ")" else o.text

/-- Arithmetic. -/
def arithmetic (op : Operator) (left right : Operand) : String :=
  bracketed left ++ " " ++ op.symbol ++ " " ++ bracketed right

/-- A key of a sort. -/
def sortKey (expr : String) (direction : SortDirection)
    (nulls : Option NullPlacement) : String :=
  expr ++ " " ++ direction.keyword ++
    match nulls with
    | some placement => " " ++ placement.keywords
    | none => ""

/-! ### Schema statements -/

/-- The default is set or dropped if it changes, then the nullability
if that changes. -/
def alterations (source target : Column)
    (default? : Except RenderError (Option String)) :
    Except RenderError (List ColumnAlteration) := do
  let ofDefault ←
    if source.default? = target.default? then pure []
    else
      match ← default? with
      | some value => pure [ColumnAlteration.setDefault value]
      | none => pure [ColumnAlteration.dropDefault]
  let ofNull :=
    if source.nullable = target.nullable then []
    else if target.nullable then [ColumnAlteration.dropNotNull]
    else [ColumnAlteration.setNotNull]
  return ofDefault ++ ofNull

/-- The name of the primary key of a table. -/
def keyName (table : String) : String := table ++ "_PK"

/-- The primary key of a table. -/
def keyClause (table : String) (columns : List String) : String :=
  "CONSTRAINT " ++ keyName table ++ " PRIMARY KEY (" ++
    ", ".intercalate columns ++ ")"

/-- What says that an index is unique. -/
def uniqueText (i : Index) : String :=
  if i.unique then "UNIQUE " else ""

/-- Creates an index beside its table. -/
def createIndexText (table : ObjectName) (i : Index) : String :=
  "CREATE " ++ uniqueText i ++ "INDEX " ++ table.qualifier ++ i.name ++
    " ON " ++ table.text ++ " (" ++ ", ".intercalate i.columns ++ ")"

end Ansi

/-- Standard SQL. -/
def Dialect.ansi : Dialect where
  name := "ANSI"
  schemaQualifier
    | some schema => schema ++ "."
    | none => ""
  tableQualifier := fun qualifier _ => qualifier
  givenQualifier := fun schema => schema ++ "."
  temporaryName := fun name => name
  sequenceName := fun table column =>
    table.name ++ "_" ++ column.name ++ "_SEQ"
  escape := Ansi.escape
  literal := Ansi.literal
  field := FieldRef.text
  call := Ansi.call
  arithmetic := Ansi.arithmetic
  concat := callText "CONCAT"
  columnType := Ansi.columnType
  sortKey := Ansi.sortKey
  likeSuffix := " ESCAPE '\\'"
  dummySource := ""
  connectionTest := "SELECT 1"
  upsert := .merge
  numberingClause := fun sequence _ =>
    "DEFAULT NEXT VALUE FOR " ++ sequence.text
  alterations := Ansi.alterations
  columnAdded := fun _ _ _ => .ok []
  columnDropped := fun _ _ => []
  createSequence := fun sequence start => [.createSequence sequence start]
  addIndex := fun table index => [.createIndex table index]
  dropIndex := fun table index => [.dropIndex table index.name]
  releaseIndex := fun _ _ => []
  keyClause := Ansi.keyClause
  dropKeyText := fun table =>
    "ALTER TABLE " ++ table.text ++ " DROP CONSTRAINT " ++
      Ansi.keyName table.base
  dropSequenceText := fun sequence => "DROP SEQUENCE " ++ sequence.text
  truncateText := fun table => "TRUNCATE TABLE " ++ table.text
  deleteRowsText := fun table => "DELETE FROM " ++ table.text
  renameColumnText := fun table source target =>
    "ALTER TABLE " ++ table.text ++ " RENAME COLUMN " ++ source ++
      " TO " ++ target
  alterTypeText := fun table column type =>
    "ALTER TABLE " ++ table.text ++ " ALTER COLUMN " ++ column ++
      " SET DATA TYPE " ++ type
  createIndexText := Ansi.createIndexText
  dropViewText := fun view => "DROP VIEW " ++ view.text

namespace Ansi

/-- The only function without a standard form makes random strings. -/
theorem call_eq_error_iff (dialect : String) (kind : FunctionKind) :
    (∃ e, call dialect kind = .error e) ↔ kind = .randomString := by
  cases kind <;> simp [call]

end Ansi

end SchemaEvolution

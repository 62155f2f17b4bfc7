import SchemaEvolution.Json.Record
import SchemaEvolution.Schema.Basic
import SchemaEvolution.Schema.Table

/-!
# `SchemaEvolution.Schema.Format`: schemas as JSON

Every type is written as an object with all of its fields, in their
declared order. A field that has a value to stand in may be left out.

* `DataType.ofJson?_toJson`: a type is read back.
-/

set_option autoImplicit false

namespace SchemaEvolution

open SchemaEvolution.Json

/-- A 32-bit number without a sign. -/
def uint32OfJson? (j : Json) : Option UInt32 :=
  (j.integer? 0 (UInt32.size - 1)).map fun i => UInt32.ofNat i.toNat

/-- A 64-bit number without a sign. -/
def uint64OfJson? (j : Json) : Option UInt64 :=
  (j.integer? 0 (UInt64.size - 1)).map fun i => UInt64.ofNat i.toNat

/-- A 64-bit number with a sign. -/
def int64OfJson? (j : Json) : Option Int64 :=
  (j.integer? Int64.minValue.toInt Int64.maxValue.toInt).map Int64.ofInt

namespace DataType

/-- A type is written as its name. -/
def toJson (t : DataType) : Json := .ofString t.name

/-- Reads a type: its name, or an object whose one key is the name.
The value of the key says nothing; `isEmpty` tells what it may be. -/
def ofJson? (isEmpty : Json → Bool) : Json → Option DataType
  | .string s => s.bind ofName?
  | .object [(key, v)] =>
      if isEmpty v then key.bind ofName? else none
  | _ => none

/-- A type is read back. -/
theorem ofJson?_toJson (isEmpty : Json → Bool) (t : DataType) :
    ofJson? isEmpty t.toJson = some t := by
  simp [toJson, ofString, ofJson?, ofName?_name]

end DataType

/-- In a text that is read as it comes, only `null` says nothing. -/
def Json.isNull : Json → Bool
  | .null => true
  | _ => false

/-- In a value that was kept before it is read, an empty object says
nothing either. -/
def Json.isNullOrEmpty : Json → Bool
  | .null => true
  | .object [] => true
  | _ => false

namespace Column

/-- The fields of a column. -/
def fieldNames : List String :=
  ["name", "data_type", "width", "scale", "nullable", "primary_key",
    "auto_numbered", "auto_number_start", "default_value"]

/-- The members of a column's object. -/
def members (c : Column) : List (String × Json) :=
  [("name", .ofString c.name), ("data_type", c.type.toJson),
    ("width", .ofInt c.width.toNat), ("scale", .ofInt c.scale.toNat),
    ("nullable", .bool c.nullable), ("primary_key", .bool c.inKey),
    ("auto_numbered", .bool c.autoNumbered),
    ("auto_number_start", .ofInt c.seriesStart.toInt),
    ("default_value",
      match c.defaultText with
      | some s => .ofString s
      | none => .null)]

/-- Writes a column. -/
def toJson (c : Column) : Json := .ofMembers c.members

/-- Reads a column. -/
def ofJson? (isEmpty : Json → Bool) (j : Json) : Option Column := do
  let fields ← j.fields? fieldNames
  let name ← required? fields "name" string?
  let type ← required? fields "data_type" (DataType.ofJson? isEmpty)
  let width ← defaulted? fields "width" 0 uint32OfJson?
  let scale ← defaulted? fields "scale" 0 uint32OfJson?
  let nullable ← defaulted? fields "nullable" false bool?
  let inKey ← defaulted? fields "primary_key" false bool?
  let autoNumbered ← defaulted? fields "auto_numbered" false bool?
  let seriesStart ←
    defaulted? fields "auto_number_start" defaultSeriesStart int64OfJson?
  let defaultText ←
    defaulted? fields "default_value" none optionalString?
  return { name, type, width, scale, nullable, inKey, autoNumbered,
           seriesStart, defaultText }

end Column

namespace Index

/-- The fields of an index. -/
def fieldNames : List String := ["name", "columns", "unique"]

/-- The members of an index's object. -/
def members (i : Index) : List (String × Json) :=
  [("name", .ofString i.name), ("columns", .ofStrings i.columns),
    ("unique", .bool i.unique)]

/-- Writes an index. -/
def toJson (i : Index) : Json := .ofMembers i.members

/-- Reads an index. -/
def ofJson? (j : Json) : Option Index := do
  let fields ← j.fields? fieldNames
  let name ← required? fields "name" string?
  let columns ← required? fields "columns" (list? string?)
  let unique ← defaulted? fields "unique" false bool?
  return { name, columns, unique }

end Index

namespace Table

/-- The fields of a table. -/
def fieldNames : List String :=
  ["name", "columns", "indexes", "temporary"]

/-- The members of a table's object. -/
def members (t : Table) : List (String × Json) :=
  [("name", .ofString t.name),
    ("columns", .array (t.columns.map Column.toJson)),
    ("indexes", .array (t.indexes.map Index.toJson)),
    ("temporary", .bool t.temporary)]

/-- Writes a table. -/
def toJson (t : Table) : Json := .ofMembers t.members

/-- Reads a table. -/
def ofJson? (isEmpty : Json → Bool) (j : Json) : Option Table := do
  let fields ← j.fields? fieldNames
  let name ← required? fields "name" string?
  let columns ←
    defaulted? fields "columns" [] (list? (Column.ofJson? isEmpty))
  let indexes ← defaulted? fields "indexes" [] (list? Index.ofJson?)
  let temporary ← defaulted? fields "temporary" false bool?
  return { name, columns, indexes, temporary }

end Table

namespace Config

/-- Writes a configuration. -/
def toJson (c : Config) : Json :=
  .ofMembers
    [("schema_name",
      match c.schemaName with
      | some s => .ofString s
      | none => .null)]

/-- Reads a configuration. -/
def ofJson? (j : Json) : Option Config := do
  let fields ← j.fields? ["schema_name"]
  let schemaName ← defaulted? fields "schema_name" none optionalString?
  return { schemaName }

end Config

end SchemaEvolution

import SchemaEvolution.Text.Basic

/-!
# `SchemaEvolution.Schema.Basic`: columns, indexes and configuration

The parts of a table as they are declared, and the configuration that says
where the tables of a database lie. An index names its columns in key
order. Column names are compared with case aside; index names are not.

* `DataType.ofName?_name`: a type is found again by its name.
* `Index.withColumnRenamed_of_not_covers`: renaming a column leaves an
  index that does not cover it alone.
* `Config.schema?_blank`: a blank name is no schema.
-/

set_option autoImplicit false

namespace SchemaEvolution

open SchemaEvolution.Text

/-! ### What a column can hold -/

/-- The logical type of a column. Width and scale are kept beside it,
where they mean something: for strings and decimals. -/
inductive DataType where
  | string
  | decimal
  | date
  | boolean
  | integer
  | bigInteger
  | blob
  | clob
  /-- The type of a bare `null`; no column has it. -/
  | null
deriving DecidableEq, Hashable

namespace DataType

/-- The name of a type in capitals. -/
def name : DataType → String
  | .string => "STRING"
  | .decimal => "DECIMAL"
  | .date => "DATE"
  | .boolean => "BOOLEAN"
  | .integer => "INTEGER"
  | .bigInteger => "BIG_INTEGER"
  | .blob => "BLOB"
  | .clob => "CLOB"
  | .null => "NULL"

/-- All types. -/
def all : List DataType :=
  [.string, .decimal, .date, .boolean, .integer, .bigInteger, .blob,
    .clob, .null]

/-- The type of a name. -/
def ofName? (s : String) : Option DataType :=
  all.find? fun t => t.name == s

/-- Whether a declaration of the type states a width. -/
def hasWidth (t : DataType) : Bool :=
  t == .string || t == .decimal

/-- Whether a declaration of the type states a scale. -/
def hasScale (t : DataType) : Bool := t == .decimal

/-- A type is found again by its name. -/
theorem ofName?_name (t : DataType) : ofName? t.name = some t := by
  cases t <;> decide

end DataType

/-! ### Columns -/

/-- A start of an autonumber series that leaves the first number to
the dialects, which begin at 1. -/
def defaultSeriesStart : Int64 := -1

/-- A column as it is declared. -/
structure Column where
  name : String
  type : DataType
  width : UInt32 := 0
  scale : UInt32 := 0
  nullable : Bool := false
  /-- Whether the column is part of the primary key. -/
  inKey : Bool := false
  /-- Whether a sequence gives the column its values. -/
  autoNumbered : Bool := false
  seriesStart : Int64 := defaultSeriesStart
  /-- The default value as it is written in the declaration. -/
  defaultText : Option String := none
deriving DecidableEq, Hashable

namespace Column

/-- The first number of the column's series. -/
def firstNumber (c : Column) : Int64 :=
  if c.seriesStart = defaultSeriesStart then 1 else c.seriesStart

/-- The default value, if there is one; a blank text is none. -/
def default? (c : Column) : Option String :=
  c.defaultText.bind nonBlank?

/-- Whether the column is called `name`, case aside. -/
def IsNamed (c : Column) (name : String) : Prop :=
  SameName c.name name

instance (c : Column) (name : String) : Decidable (c.IsNamed name) :=
  inferInstanceAs (Decidable (SameName c.name name))

/-- Whether two columns are declared with one type, width and scale. -/
def SameType (c d : Column) : Prop :=
  c.type = d.type ∧ c.width = d.width ∧ c.scale = d.scale

instance (c d : Column) : Decidable (c.SameType d) :=
  inferInstanceAs (Decidable (_ ∧ _))

/-- The column with a series that starts at `start`. -/
def numberedFrom (c : Column) (start : Int64) : Column :=
  { c with autoNumbered := true, seriesStart := start }

end Column

/-! ### Indexes -/

/-- An index as it is declared. -/
structure Index where
  name : String
  columns : List String
  unique : Bool := false
deriving DecidableEq, Hashable

namespace Index

/-- Whether the index covers the column called `column`. -/
def Covers (i : Index) (column : String) : Prop :=
  ∃ c ∈ i.columns, SameName c column

instance (i : Index) (column : String) : Decidable (i.Covers column) :=
  inferInstanceAs (Decidable (∃ c ∈ i.columns, SameName c column))

/-- The same index under another name. -/
def renamed (i : Index) (name : String) : Index :=
  { i with name := name }

/-- The index after the column `source` has become `target`. -/
def withColumnRenamed (i : Index) (source target : String) : Index :=
  { i with
    columns := i.columns.map fun c =>
      if SameName c source then target else c }

/-- Renaming a column leaves an index that does not cover it alone. -/
theorem withColumnRenamed_of_not_covers {i : Index}
    {source target : String} (h : ¬ i.Covers source) :
    i.withColumnRenamed source target = i := by
  have hmap : i.columns.map
      (fun c => if SameName c source then target else c) = i.columns := by
    conv => rhs; rw [← List.map_id i.columns]
    refine List.map_congr_left fun c hc => ?_
    have : ¬ SameName c source := fun hs => h ⟨c, hc, hs⟩
    simp [this]
  simp [withColumnRenamed, hmap]

end Index

/-! ### Where tables lie -/

/-- The configuration of a database: the schema its objects lie in, as
it was given. -/
structure Config where
  schemaName : Option String := none
deriving DecidableEq

namespace Config

/-- The schema, if there is one: the name without the white space
around it. -/
def schema? (c : Config) : Option String :=
  (c.schemaName.map trimBlanks).filter fun s => s ≠ ""

/-- A blank name is no schema. -/
theorem schema?_blank {name : String} (blank : isBlank name = true) :
    (Config.mk (some name)).schema? = none := by
  simp [schema?, trimBlanks_of_isBlank blank]

end Config

end SchemaEvolution

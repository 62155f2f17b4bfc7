import SchemaEvolution.Schema.Basic

/-!
# `SchemaEvolution.Ddl.Basic`: the statements that change a schema

A `Ddl` is one statement with every name, type and default settled.
What it does can be read off it; how it is worded is up to the dialect.
A statement that only one vendor has is kept as its text.
-/

set_option autoImplicit false

namespace SchemaEvolution

/-- The name of a table, sequence or view, behind the schema it lies
in. The qualifier is empty or ends in a dot. -/
structure ObjectName where
  qualifier : String
  base : String
deriving DecidableEq

/-- The name as a statement writes it. -/
def ObjectName.text (n : ObjectName) : String :=
  n.qualifier ++ n.base

/-- A column as it stands in a statement that creates it. -/
structure ColumnDefinition where
  name : String
  type : String
  default? : Option String
  notNull : Bool
  /-- What makes a sequence feed the column. -/
  numbering? : Option String
deriving DecidableEq

/-- The definition: name, type, default, nullability, numbering. -/
def ColumnDefinition.text (c : ColumnDefinition) : String :=
  c.name ++ " " ++ c.type ++
    (match c.default? with
      | some v => " DEFAULT " ++ v
      | none => "") ++
    (if c.notNull then " NOT NULL" else "") ++
    (match c.numbering? with
      | some clause => " " ++ clause
      | none => "")

/-- A change of the default or the nullability of a column. -/
inductive ColumnAlteration where
  | setDefault (value : String)
  | dropDefault
  | setNotNull
  | dropNotNull
  /-- Sets both at once, and fills the rows that are there. -/
  | notNullDefault (value : String)
  | notNull
  | null
deriving DecidableEq

/-- The words of an alteration. -/
def ColumnAlteration.text : ColumnAlteration → String
  | .setDefault value => "SET DEFAULT " ++ value
  | .dropDefault => "DROP DEFAULT"
  | .setNotNull => "SET NOT NULL"
  | .dropNotNull => "DROP NOT NULL"
  | .notNullDefault value => "NOT NULL DEFAULT " ++ value
  | .notNull => "NOT NULL"
  | .null => "NULL"

/-- A statement that changes a schema. -/
inductive Ddl where
  | createSequence (sequence : ObjectName) (start : Int64)
  | dropSequence (sequence : ObjectName)
  | createTable (table : ObjectName) (temporary : Bool)
      (columns : List ColumnDefinition) (key : List String)
  | dropTable (table : ObjectName)
  | renameTable (source target : ObjectName)
  | truncateTable (table : ObjectName)
  | deleteRows (table : ObjectName)
  | addColumn (table : ObjectName) (column : ColumnDefinition)
  | dropColumn (table : ObjectName) (column : String)
  | renameColumn (table : ObjectName) (source target : String)
  | alterType (table : ObjectName) (column type : String)
  | alterColumn (table : ObjectName) (column : String)
      (alteration : ColumnAlteration)
  /-- Gives every row one value. -/
  | fillColumn (table : ObjectName) (column value : String)
  | dropKey (table : ObjectName)
  | addKey (table : ObjectName) (columns : List String)
  | createIndex (table : ObjectName) (index : Index)
  | dropIndex (table : ObjectName) (index : String)
  /-- Drops an index if it is there. -/
  | clearIndex (table : ObjectName) (index : String)
  | dropView (view : ObjectName)
  | vendor (text : String)
deriving DecidableEq

end SchemaEvolution

import SchemaEvolution.RenderError
import SchemaEvolution.Schema.Basic

/-!
# `SchemaEvolution.Schema.Table`: tables

Columns and indexes stand in the order of their declaration. Whether
two tables are equal does not hang on that order, except among the
columns of the primary key: `==` compares the tables' identities, in
which columns and indexes are sorted by name.

* `Table.beq_iff_identity_eq`: what `==` decides.
* `Table.hash_eq_of_beq`: equal tables have one hash.
-/

set_option autoImplicit false

namespace SchemaEvolution

open SchemaEvolution.Text

/-- A table as it is declared. -/
structure Table where
  name : String
  columns : List Column := []
  indexes : List Index := []
  /-- Whether the table lives only as long as a session. -/
  temporary : Bool := false

/-- The list with `new` in the place of the first element that
satisfies `p`. -/
def replaceFirst {α : Type} (p : α → Bool) (new : α) : List α → List α
  | [] => []
  | x :: rest => if p x then new :: rest else x :: replaceFirst p new rest

namespace Table

/-! ### Looking things up -/

/-- The column called `name`, case aside. -/
def column? (t : Table) (name : String) : Option Column :=
  t.columns.find? fun c => c.IsNamed name

/-- The first index called exactly `name`. -/
def index? (t : Table) (name : String) : Option Index :=
  t.indexes.find? fun i => i.name == name

/-- The names of the key columns, in the order of their declaration. -/
def primaryKey (t : Table) : List String :=
  (t.columns.filter Column.inKey).map Column.name

/-- The indexes that cover one of the named columns. -/
def indexesOn (t : Table) (names : List String) : List Index :=
  t.indexes.filter fun i => names.any fun n => i.Covers n

/-! ### Changing a table -/

/-- The table with one more column. -/
def withColumn (t : Table) (c : Column) : Table :=
  { t with columns := t.columns ++ [c] }

/-- The table with `new` in the place of the column called `name`. The
indexes follow when that changes the name. -/
def withColumnReplaced (t : Table) (name : String) (new : Column) :
    Table :=
  { t with
    indexes :=
      if new.IsNamed name then t.indexes
      else t.indexes.map fun i => i.withColumnRenamed name new.name
    columns := replaceFirst (fun c => c.IsNamed name) new t.columns }

/-- The table without the columns called `name`. -/
def withoutColumn (t : Table) (name : String) : Table :=
  { t with columns := t.columns.filter fun c => !c.IsNamed name }

/-- The table with one more index. -/
def withIndex (t : Table) (i : Index) : Table :=
  { t with indexes := t.indexes ++ [i] }

/-- The table without the indexes called `name`, case aside. -/
def withoutIndex (t : Table) (name : String) : Table :=
  { t with indexes := t.indexes.filter fun i => !SameName i.name name }

/-- The columns that are named, each once, in the order in which they
are first named. -/
def columnsNamed (t : Table) (names : List String) : List Column :=
  names.foldl
    (fun found n =>
      match t.column? n with
      | some c =>
          if found.any fun f => f.IsNamed c.name then found
          else found ++ [c]
      | none => found)
    []

/-- The columns with those of the key replaced, one after the other,
by the columns `key`. -/
def fillKey : List Column → List Column → List Column
  | [], _ => []
  | c :: rest, key =>
      if c.inKey then
        match key with
        | k :: key => k :: fillKey rest key
        | [] => c :: fillKey rest []
      else c :: fillKey rest key

/-- The table with the named columns as its primary key, in that
order. They take each other's places; no other column moves. -/
def withPrimaryKey (t : Table) (names : List String) : Table :=
  let marked :=
    t.columns.map fun c =>
      { c with inKey := names.any fun n => c.IsNamed n }
  let key := { t with columns := marked }.columnsNamed names
  { t with columns := fillKey marked key }

/-! ### Validity -/

/-- The first column that is called as one before it, or as one of
`seen`. -/
def repeatedColumn? (seen : List String) : List Column → Option Column
  | [] => none
  | c :: rest =>
      if seen.any fun n => SameName n c.name then some c
      else repeatedColumn? (c.name :: seen) rest

/-- The first column of an index that the table lacks, after the name
of the index. -/
def missingIndexColumn? (t : Table) : Option (String × String) :=
  t.indexes.findSome? fun i =>
    (i.columns.find? fun n => (t.column? n).isNone).map fun n =>
      (i.name, n)

/-- Checks that the table has a name, that no two columns share theirs
and that the indexes cover columns of the table. -/
def validate (t : Table) : Except RenderError Unit :=
  if isBlank t.name then .error .blankTableName
  else
    match repeatedColumn? [] t.columns with
    | some c => .error (.duplicateColumn t.name c.name)
    | none =>
        match t.missingIndexColumn? with
        | some (i, c) => .error (.unknownIndexColumn t.name i c)
        | none => .ok ()

/-! ### Equality -/

/-- What a table is compared by. -/
structure Identity where
  name : String
  temporary : Bool
  key : List String
  columns : List (String × Column)
  indexes : List Index
deriving DecidableEq, Hashable

/-- The identity of a table: its columns by their names with case
aside, its indexes by their exact names. Sorting is stable. -/
def identity (t : Table) : Identity where
  name := t.name
  temporary := t.temporary
  key := t.primaryKey
  columns :=
    (t.columns.map fun c => (foldCase c.name, c)).mergeSort
      fun a b => a.1 ≤ b.1
  indexes := t.indexes.mergeSort fun a b => a.name ≤ b.name

instance : BEq Table :=
  ⟨fun a b => a.identity == b.identity⟩

instance : Hashable Table :=
  ⟨fun t => hash t.identity⟩

/-- Tables are equal when their identities are. -/
theorem beq_iff_identity_eq (a b : Table) :
    (a == b) = true ↔ a.identity = b.identity :=
  beq_iff_eq (α := Identity)

/-- Equal tables have one hash. -/
theorem hash_eq_of_beq {a b : Table} (h : (a == b) = true) :
    hash a = hash b := by
  show hash a.identity = hash b.identity
  rw [(beq_iff_identity_eq a b).mp h]

end Table

end SchemaEvolution

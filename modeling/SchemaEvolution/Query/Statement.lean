import SchemaEvolution.Query.Criterion

/-!
# `SchemaEvolution.Query.Statement`: statements on data

Queries and the four statements that write rows. The rows that a
merge, an insert or an update writes are expressions, and the columns
they go to are the names that the expressions imply.
-/

set_option autoImplicit false

namespace SchemaEvolution

/-- The direction of a sort. -/
inductive SortDirection where
  | ascending
  | descending
deriving DecidableEq, Hashable

/-- The keyword of a direction. -/
def SortDirection.keyword : SortDirection → String
  | .ascending => "ASC"
  | .descending => "DESC"

/-- Where a sort puts the rows without a value. -/
inductive NullPlacement where
  | first
  | last
deriving DecidableEq, Hashable

/-- The keywords of a placement. -/
def NullPlacement.keywords : NullPlacement → String
  | .first => "NULLS FIRST"
  | .last => "NULLS LAST"

/-- One key of a sort. -/
structure SortKey where
  expr : Expr
  direction : SortDirection := .ascending
  nulls : Option NullPlacement := none
deriving DecidableEq, Hashable

/-- Which rows of the left side a join keeps. -/
inductive JoinKind where
  | inner
  | left
deriving DecidableEq, Hashable

/-- The keywords of a join. -/
def JoinKind.keywords : JoinKind → String
  | .inner => "INNER JOIN"
  | .left => "LEFT OUTER JOIN"

/-- A table that a query joins to those before it. -/
structure Join where
  kind : JoinKind
  table : TableRef
  criterion : Criterion
deriving DecidableEq, Hashable

/-- A wish about the way a query is run. -/
inductive Hint where
  | useIndex (table : TableRef) (index : String)
  | implicitJoinOrder
  | rowCount (rows : UInt32)
  | parallel
deriving DecidableEq, Hashable

/-- A query. Without fields it takes every column. -/
structure Select where
  distinct : Bool := false
  fields : List Expr := []
  source : Option TableRef := none
  joins : List Join := []
  filter : Option Criterion := none
  groupBy : List Expr := []
  having : Option Criterion := none
  orderBy : List SortKey := []
  hints : List Hint := []
deriving DecidableEq, Hashable

namespace Select

/-- The query with one more table joined. -/
def join (s : Select) (kind : JoinKind) (table : TableRef)
    (criterion : Criterion) : Select :=
  { s with joins := s.joins ++ [⟨kind, table, criterion⟩] }

/-- The query with one more hint. -/
def hint (s : Select) (h : Hint) : Select :=
  { s with hints := s.hints ++ [h] }

end Select

/-- Writes the rows of a query over those of a table that have the
same key, and adds the others. -/
structure Merge where
  target : TableRef
  source : Select
  key : List Expr
deriving DecidableEq, Hashable

/-- The rows that an insert adds. -/
inductive InsertSource where
  | values (values : List Expr)
  | select (s : Select)
deriving DecidableEq, Hashable

/-- Adds rows to a table. -/
structure Insert where
  target : TableRef
  columns : List String
  source : InsertSource
deriving DecidableEq, Hashable

/-- Changes the rows of a table that meet a condition. -/
structure Update where
  target : TableRef
  assignments : List Expr
  filter : Option Criterion
deriving DecidableEq, Hashable

/-- Removes the rows of a table that meet a condition. -/
structure Delete where
  target : TableRef
  filter : Option Criterion
deriving DecidableEq, Hashable

/-- A statement on data. -/
inductive Statement where
  | select (s : Select)
  | merge (m : Merge)
  | insert (i : Insert)
  | update (u : Update)
  | delete (d : Delete)
deriving DecidableEq, Hashable

end SchemaEvolution

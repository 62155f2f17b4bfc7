import SchemaEvolution.Session.Basic

/-!
# `SchemaEvolution.Session.StatementText`: writing statements on data

The parts of a statement are written in the order in which they stand
in its text, and the first one that cannot be written decides the
error. A merge and an update name their columns before they write any
expression.

* `impliedNames_eq_ok_iff`: names are found exactly when every field
  has one.
* `Session.fieldTexts_eq_mapM`, `Session.sortKeyTexts_eq_mapM`,
  `Session.joinsText_eq_mapM`: lists are written part by part.
-/

set_option autoImplicit false

namespace SchemaEvolution

open SchemaEvolution.Text

/-- What the source rows of a merge are called. -/
def mergeSource : String := "xmergesource"

/-- The implied names of fields that are written to a table. -/
def impliedNames (table : String) :
    List Expr → Except RenderError (List String)
  | [] => .ok []
  | e :: rest =>
      match e.impliedName? with
      | some name => (impliedNames table rest).map (name :: ·)
      | none => .error (.unnamedField table)

/-- The implied names of the key of a merge. -/
def keyNames (table : String) :
    List Expr → Except RenderError (List String)
  | [] => .ok []
  | e :: rest =>
      match e.impliedName? with
      | some name => (keyNames table rest).map (name :: ·)
      | none => .error (.unnamedMergeKey table)

/-- Names that are found are the ones that the fields imply. -/
theorem map_impliedName?_of_impliedNames {table : String}
    {es : List Expr} {names : List String}
    (h : impliedNames table es = .ok names) :
    es.map Expr.impliedName? = names.map some := by
  induction es generalizing names with
  | nil =>
      simp only [impliedNames, Except.ok.injEq] at h
      subst h
      rfl
  | cons e rest ih =>
      unfold impliedNames at h
      split at h
      · rename_i name he
        cases hr : impliedNames table rest with
        | error err => simp [hr, Except.map] at h
        | ok tail =>
            simp only [hr, Except.map, Except.ok.injEq] at h
            subst h
            simp [he, ih hr]
      · simp at h

/-- Names are found exactly when every field has one. -/
theorem impliedNames_eq_ok_iff (table : String) (es : List Expr)
    (names : List String) :
    impliedNames table es = .ok names ↔
      es.map Expr.impliedName? = names.map some := by
  refine ⟨map_impliedName?_of_impliedNames, fun h => ?_⟩
  induction es generalizing names with
  | nil => cases names <;> simp_all [impliedNames]
  | cons e rest ih =>
      cases names with
      | nil => simp at h
      | cons n ns =>
          simp only [List.map_cons, List.cons.injEq] at h
          simp [impliedNames, h.1, ih ns h.2, Except.map]

namespace Session

/-- A table that a statement reads or writes. -/
def tableText (s : Session) (table : TableRef) :
    Except RenderError String := do
  checkTableName table.name
  return s.qualifier table ++ table.name ++
    match table.aliasName with
    | some name => " " ++ name
    | none => ""

/-- A field of a query, under its outermost alias. -/
def fieldText (s : Session) : Expr → Except RenderError String
  | .aliased e name => do
      let text ← s.dialect.exprText e
      return text ++ " AS " ++ name
  | e => s.dialect.exprText e

/-- The fields of a query. -/
def fieldTexts (s : Session) :
    List Expr → Except RenderError (List String)
  | [] => .ok []
  | e :: rest => do
      let text ← s.fieldText e
      let texts ← s.fieldTexts rest
      return text :: texts

/-- The joined tables of a query. -/
def joinsText (s : Session) : List Join → Except RenderError String
  | [] => .ok ""
  | j :: rest => do
      let table ← s.tableText j.table
      let criterion ← s.dialect.criterionText j.criterion
      let text ← s.joinsText rest
      return " " ++ j.kind.keywords ++ " " ++ table ++ " ON " ++
        criterion ++ text

/-- One of the joined tables. -/
def joinText (s : Session) (j : Join) : Except RenderError String := do
  let table ← s.tableText j.table
  let criterion ← s.dialect.criterionText j.criterion
  return j.kind.keywords ++ " " ++ table ++ " ON " ++ criterion

/-- The keys of a sort. -/
def sortKeyTexts (s : Session) :
    List SortKey → Except RenderError (List String)
  | [] => .ok []
  | k :: rest => do
      let text ← s.dialect.sortKeyText k
      let texts ← s.sortKeyTexts rest
      return text :: texts

/-- Fields are written one by one. -/
theorem fieldTexts_eq_mapM (s : Session) (es : List Expr) :
    s.fieldTexts es = es.mapM s.fieldText := by
  induction es with
  | nil => rfl
  | cons e rest ih => rw [fieldTexts, List.mapM_cons, ih]

/-- Keys of a sort are written one by one. -/
theorem sortKeyTexts_eq_mapM (s : Session) (ks : List SortKey) :
    s.sortKeyTexts ks = ks.mapM s.dialect.sortKeyText := by
  induction ks with
  | nil => rfl
  | cons k rest ih => rw [sortKeyTexts, List.mapM_cons, ih]

/-- Joined tables are written one by one, each behind a blank. -/
theorem joinsText_eq_mapM (s : Session) (js : List Join) :
    s.joinsText js = do
      let texts ← js.mapM s.joinText
      return String.join (texts.map (" " ++ ·)) := by
  induction js with
  | nil => rfl
  | cons j rest ih =>
      rw [joinsText, List.mapM_cons, ih, joinText]
      simp only [bind_assoc, pure_bind, List.map_cons, String.join_cons,
        String.append_assoc]

/-- A clause that is a condition, if there is one. -/
def conditionClause (s : Session) (keyword : String) :
    Option Criterion → Except RenderError String
  | none => .ok ""
  | some c => do
      let text ← s.dialect.criterionText c
      return keyword ++ text

/-- The clause that names what a query reads from. -/
def sourceClause (s : Session) :
    Option TableRef → Except RenderError String
  | none => .ok s.dialect.dummySource
  | some table => do
      let text ← s.tableText table
      return " FROM " ++ text

/-- The clause that groups rows, if they are grouped. -/
def groupClause (s : Session) (es : List Expr) :
    Except RenderError String :=
  if es.isEmpty then .ok ""
  else do
    let text ← s.dialect.exprListText es
    return " GROUP BY " ++ text

/-- The clause that sorts rows, if they are sorted. -/
def orderClause (s : Session) (ks : List SortKey) :
    Except RenderError String :=
  if ks.isEmpty then .ok ""
  else do
    let texts ← s.sortKeyTexts ks
    return " ORDER BY " ++ ", ".intercalate texts

/-- A query. Its hints are not written. -/
def selectText (s : Session) (q : Select) :
    Except RenderError String := do
  let fields ← s.fieldTexts q.fields
  let source ← s.sourceClause q.source
  let joins ← s.joinsText q.joins
  let filter ← s.conditionClause " WHERE " q.filter
  let groups ← s.groupClause q.groupBy
  let having ← s.conditionClause " HAVING " q.having
  let order ← s.orderClause q.orderBy
  return "SELECT " ++ (if q.distinct then "DISTINCT " else "") ++
    (if q.fields.isEmpty then "*" else ", ".intercalate fields) ++
    source ++ joins ++ filter ++ groups ++ having ++ order

/-- A merge as a `MERGE`. -/
def mergeText (s : Session) (m : Merge) : Except RenderError String := do
  let target ← s.tableText m.target
  let fields ← impliedNames m.target.name m.source.fields
  let keys ← keyNames m.target.name m.key
  let source ← s.selectText m.source
  let criterion := keys.map fun key =>
    m.target.qualifier ++ "." ++ key ++ " = " ++ mergeSource ++ "." ++ key
  let changed := fields.filter fun field =>
    !keys.any fun key => SameName key field
  let updates := changed.map fun field =>
    field ++ " = " ++ mergeSource ++ "." ++ field
  let values := fields.map fun field => mergeSource ++ "." ++ field
  return "MERGE INTO " ++ target ++ " USING (" ++ source ++ ") " ++
    mergeSource ++ " ON (" ++ " AND ".intercalate criterion ++ ")" ++
    (if updates.isEmpty then ""
     else " WHEN MATCHED THEN UPDATE SET " ++ ", ".intercalate updates) ++
    " WHEN NOT MATCHED THEN INSERT (" ++ ", ".intercalate fields ++
    ") VALUES (" ++ ", ".intercalate values ++ ")"

/-- A merge as an insert that updates on a duplicate key. The key is
that of the table's own unique index. -/
def upsertText (s : Session) (m : Merge) : Except RenderError String := do
  checkTableName m.target.name
  if !m.source.hints.isEmpty then
    .error (.unsupported s.dialect.name
      "MERGE may not be used with SELECT statement hints")
  else
    let fields ← impliedNames m.target.name m.source.fields
    let source ← s.selectText m.source
    let updates := fields.map fun field =>
      field ++ " = values(" ++ field ++ ")"
    return "INSERT INTO " ++ s.qualifier m.target ++ m.target.name ++
      "(" ++ ", ".intercalate fields ++ ") " ++ source ++
      " ON DUPLICATE KEY UPDATE " ++ ", ".intercalate updates

/-- The rows of an insert. -/
def insertSourceText (s : Session) :
    InsertSource → Except RenderError String
  | .values values => do
      let text ← s.dialect.exprListText values
      return " VALUES (" ++ text ++ ")"
  | .select q => do
      let text ← s.selectText q
      return " " ++ text

/-- An insert. -/
def insertText (s : Session) (i : Insert) :
    Except RenderError String := do
  let target ← s.tableText i.target
  let source ← s.insertSourceText i.source
  return "INSERT INTO " ++ target ++
    (if i.columns.isEmpty then ""
     else " (" ++ ", ".intercalate i.columns ++ ")") ++ source

/-- An update. -/
def updateText (s : Session) (u : Update) :
    Except RenderError String := do
  let target ← s.tableText u.target
  let names ← impliedNames u.target.name u.assignments
  let values ← s.dialect.exprTexts u.assignments
  let filter ← s.conditionClause " WHERE " u.filter
  let assignments := List.zipWith (fun n v => n ++ " = " ++ v) names values
  return "UPDATE " ++ target ++ " SET " ++
    ", ".intercalate assignments ++ filter

/-- A delete. -/
def deleteText (s : Session) (d : Delete) :
    Except RenderError String := do
  let target ← s.tableText d.target
  let filter ← s.conditionClause " WHERE " d.filter
  return "DELETE FROM " ++ target ++ filter

/-- A statement on data. -/
def statementText (s : Session) : Statement → Except RenderError String
  | .select q => s.selectText q
  | .merge m =>
      match s.dialect.upsert with
      | .merge => s.mergeText m
      | .insertOnDuplicateKey => s.upsertText m
  | .insert i => s.insertText i
  | .update u => s.updateText u
  | .delete d => s.deleteText d

end Session

end SchemaEvolution

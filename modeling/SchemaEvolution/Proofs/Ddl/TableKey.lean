import SchemaEvolution.Ddl.Basic
import SchemaEvolution.Proofs.Schema.Table

/-!
# `SchemaEvolution.Proofs.Ddl.TableKey`: the key constraint of one table

What schema statements do to the primary key of a table is read off a
small database that knows of one table only: its name and the columns of
its key constraint, if it has one. A statement is refused there when it
drops a key that is not there, adds one where there is one, or touches a
column of a key that is there. So a list of statements that runs has kept
to all of these rules.

* `TableKey.run_append_of_run`: statements that run are followed by the
  next ones.
* `TableKey.run_of_forall_keeps`: statements of which each leaves the
  table as it is.
* `TableKey.run_rebuild`: what the planner puts around statements that
  touch the key: the key is dropped before and added after.
* `keyColumns_append`, `keyColumns_cons`: the names of the key columns, from
  a split of the columns.
-/

set_option autoImplicit false

namespace SchemaEvolution

open SchemaEvolution.Text

/-! ### A database with one table -/

/-- A table in the database: its name and the columns of its key
constraint, if it has one. -/
structure TableKey where
  table : ObjectName
  key : Option (List String)
deriving DecidableEq

namespace TableKey

/-- The key constraint is there and covers a column of this name. -/
def Covers (k : TableKey) (column : String) : Prop :=
  ∃ n ∈ k.key.getD [], SameName n column

instance (k : TableKey) (column : String) : Decidable (k.Covers column) :=
  inferInstanceAs (Decidable (∃ n ∈ k.key.getD [], SameName n column))

/-- A statement on a column of the table. The column may not be covered
by a key constraint. -/
def onColumn (k : TableKey) (table : ObjectName) (column : String) :
    Option TableKey :=
  if table = k.table ∧ ¬ k.Covers column then some k else none

/-- What a statement makes of the table, unless it is refused.
Statements that make, drop or empty tables, and those of one vendor
only, are refused as well: no change of a table needs them. -/
def step (k : TableKey) : Ddl → Option TableKey
  | .dropKey table =>
      if table = k.table ∧ k.key.isSome then some { k with key := none }
      else none
  | .addKey table columns =>
      if table = k.table ∧ k.key = none then
        some { k with key := some columns }
      else none
  | .renameTable source target =>
      if source = k.table then some { k with table := target } else none
  | .dropColumn table column => k.onColumn table column
  | .renameColumn table source _ => k.onColumn table source
  | .alterType table column _ => k.onColumn table column
  | .alterColumn table column _ => k.onColumn table column
  | .addColumn table _ => if table = k.table then some k else none
  | .fillColumn table _ _ => if table = k.table then some k else none
  | .createSequence _ _ | .dropSequence _ | .createIndex _ _
  | .dropIndex _ _ | .clearIndex _ _ | .dropView _ => some k
  | .createTable _ _ _ _ | .dropTable _ | .truncateTable _
  | .deleteRows _ | .vendor _ => none

/-- What statements make of the table, one after the other, unless one
of them is refused. -/
def run (k : TableKey) (statements : List Ddl) : Option TableKey :=
  statements.foldlM step k

/-! ### Lists of statements -/

variable {k : TableKey}

/-- A statement that is accepted is followed by the rest. -/
theorem run_cons_of_step {d : Ddl} {rest : List Ddl} {next : TableKey}
    (h : k.step d = some next) : k.run (d :: rest) = next.run rest := by
  rw [run, List.foldlM_cons, h]
  rfl

/-- Statements that run are followed by the next ones. -/
theorem run_append_of_run {xs ys : List Ddl} {next : TableKey}
    (h : k.run xs = some next) : k.run (xs ++ ys) = next.run ys := by
  rw [run] at h
  rw [run, List.foldlM_append, h]
  rfl

/-- The statement leaves the table as it is. -/
def Keeps (k : TableKey) (d : Ddl) : Prop := k.step d = some k

/-- Statements of which each leaves the table as it is do so
together. -/
theorem run_of_forall_keeps {ds : List Ddl} (h : ∀ d ∈ ds, k.Keeps d) :
    k.run ds = some k := by
  induction ds with
  | nil => rfl
  | cons d rest ih =>
      rw [run_cons_of_step (h d List.mem_cons_self)]
      exact ih fun x hx => h x (List.mem_cons_of_mem d hx)

/-- The key constraint on these columns, which is none when there are
none. -/
def ofNames (names : List String) : Option (List String) :=
  if names.isEmpty then none else some names

/-- What the planner puts around statements that touch the key. The key
is dropped before, and added after, under the name that the table has
then. -/
theorem run_rebuild {table table' : ObjectName}
    {before after : List String} {drops adds between : List Ddl}
    (hdrops : drops = if before.isEmpty then [] else [.dropKey table])
    (hbetween : run ⟨table, none⟩ between = some ⟨table', none⟩)
    (hadds : adds = if after.isEmpty then [] else [.addKey table' after]) :
    run ⟨table, ofNames before⟩ (drops ++ between ++ adds) =
      some ⟨table', ofNames after⟩ := by
  -- Behind the drops there is no key, whether there was one or not.
  have hdropped : run ⟨table, ofNames before⟩ drops =
      some ⟨table, none⟩ := by
    rw [hdrops]
    cases before with
    | nil => rfl
    | cons n rest =>
        rw [if_neg (by simp)]
        exact run_cons_of_step (by simp [step, ofNames])
  -- A key without columns is no key, so nothing is added for it.
  have hadded : run ⟨table', none⟩ adds =
      some ⟨table', ofNames after⟩ := by
    rw [hadds]
    cases after with
    | nil => rfl
    | cons n rest =>
        rw [if_neg (by simp)]
        exact run_cons_of_step (by simp [step, ofNames])
  rw [List.append_assoc, run_append_of_run hdropped,
    run_append_of_run hbetween]
  exact hadded

/-! ### Single statements -/

/-- A statement on a column that no key covers leaves the table as it
is. -/
theorem onColumn_of_not_covers {column : String}
    (h : ¬ k.Covers column) : k.onColumn k.table column = some k := by
  rw [onColumn, if_pos ⟨rfl, h⟩]

/-- Without a key, no column is covered. -/
theorem not_covers_none {table : ObjectName} {column : String} :
    ¬ Covers ⟨table, none⟩ column := by
  rintro ⟨n, hn, -⟩
  cases hn

/-- A key covers a column when one of its names is the column's. -/
theorem covers_ofNames_iff {table : ObjectName} {names : List String}
    {column : String} :
    Covers ⟨table, ofNames names⟩ column ↔
      ∃ n ∈ names, SameName n column := by
  cases names with
  | nil => simp [Covers, ofNames]
  | cons n rest => simp [Covers, ofNames]

end TableKey

/-! ### The names of the key columns -/

/-- The names of those columns that are in the key. -/
def keyColumns (cs : List Column) : List String :=
  (cs.filter Column.inKey).map Column.name

theorem Table.primaryKey_eq (t : Table) :
    t.primaryKey = keyColumns t.columns := rfl

theorem keyColumns_append (cs ds : List Column) :
    keyColumns (cs ++ ds) = keyColumns cs ++ keyColumns ds := by
  simp [keyColumns]

theorem keyColumns_cons (c : Column) (cs : List Column) :
    keyColumns (c :: cs) =
      (if c.inKey then [c.name] else []) ++ keyColumns cs := by
  cases hc : c.inKey <;> simp [keyColumns, hc]

/-- The name of a key column is the name of a column. -/
theorem mem_of_mem_keyColumns {cs : List Column} {n : String}
    (h : n ∈ keyColumns cs) : ∃ c ∈ cs, c.name = n := by
  obtain ⟨c, hc, rfl⟩ := List.mem_map.mp h
  exact ⟨c, (List.mem_filter.mp hc).1, rfl⟩

end SchemaEvolution

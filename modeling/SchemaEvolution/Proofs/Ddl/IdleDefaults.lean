import Mathlib.Data.List.Basic
import SchemaEvolution.Ddl.ColumnPlan
import SchemaEvolution.Dialect.NuoDb
import SchemaEvolution.Proofs.Schema.Table

/-!
# `SchemaEvolution.Proofs.Ddl.IdleDefaults`: defaults beside a sequence

A sequence takes the place of the default of an autonumbered column, so that
a default that is declared for it is idle. The lemmas here compare a table
with the same table without its idle defaults, and show that most of what is
written about the two is the same: their names, their sequences, the
definitions of their columns, and so all that creates them.

* `Table.withoutIdleDefaults`: two tables differ in idle defaults at most
  when they are the same without them.
* `Dialect.NamesWithoutDefaults`: no name hangs on a default.
* `Target.columnDefinition_withoutIdleDefaults`: nor does the definition of a
  column that is autonumbered.
* `Target.deployTable_withoutIdleDefaults`: nor does what creates a table.
-/

set_option autoImplicit false

namespace SchemaEvolution

/-! ### Without idle defaults -/

/-- The column without its default, if it is autonumbered. -/
def Column.withoutIdleDefault (c : Column) : Column :=
  { c with defaultText := if c.autoNumbered then none else c.defaultText }

/-- The column without its default. -/
def Column.withoutDefault (c : Column) : Column :=
  { c with defaultText := none }

/-- The table without the defaults of its autonumbered columns. -/
def Table.withoutIdleDefaults (t : Table) : Table :=
  { t with columns := t.columns.map Column.withoutIdleDefault }

namespace Column

variable {c : Column}

/-- The default of an autonumbered column is idle. -/
theorem withoutIdleDefault_of_autoNumbered (h : c.autoNumbered = true) :
    c.withoutIdleDefault = c.withoutDefault := by
  rw [withoutIdleDefault, if_pos h, withoutDefault]

/-- Any other column keeps its default. -/
theorem withoutIdleDefault_of_not_autoNumbered
    (h : c.autoNumbered = false) : c.withoutIdleDefault = c := by
  rw [withoutIdleDefault, if_neg (by simp [h])]

/-- Columns that differ in their defaults at most are both autonumbered, or
both not. -/
theorem autoNumbered_eq {d : Column}
    (h : c.withoutDefault = d.withoutDefault) :
    c.autoNumbered = d.autoNumbered := by
  have hnumbered := congrArg autoNumbered h
  exact hnumbered

end Column

namespace Table

/-- The names of the columns stay, and so does what is wrong with them. -/
theorem repeatedColumn?_map (f : Column → Column)
    (hname : ∀ c, (f c).name = c.name) (seen : List String)
    (cs : List Column) :
    repeatedColumn? seen (cs.map f) = (repeatedColumn? seen cs).map f := by
  induction cs generalizing seen with
  | nil => rfl
  | cons c rest ih =>
      rw [List.map_cons, repeatedColumn?, repeatedColumn?, hname]
      split
      · rfl
      · exact ih _

/-- A table is checked without a look at its defaults. -/
theorem validate_withoutIdleDefaults (t : Table) :
    t.withoutIdleDefaults.validate = t.validate := by
  have hrepeated : repeatedColumn? [] t.withoutIdleDefaults.columns =
      (repeatedColumn? [] t.columns).map Column.withoutIdleDefault :=
    repeatedColumn?_map Column.withoutIdleDefault (fun _ => rfl) [] t.columns
  have hmissing : t.withoutIdleDefaults.missingIndexColumn? =
      t.missingIndexColumn? := by
    have hcolumn : ∀ n, t.withoutIdleDefaults.column? n =
        (t.column? n).map Column.withoutIdleDefault :=
      column?_map Column.withoutIdleDefault fun _ => rfl
    simp only [missingIndexColumn?, hcolumn, Option.isNone_map]
    rfl
  rw [validate, validate, hrepeated, hmissing]
  cases repeatedColumn? [] t.columns <;> rfl

/-- The key stays. -/
theorem primaryKey_withoutIdleDefaults (t : Table) :
    t.withoutIdleDefaults.primaryKey = t.primaryKey := by
  show List.map _ (List.filter _ (List.map _ _)) = _
  rw [List.filter_map, List.map_map]
  rfl

end Table

/-! ### Names without a look at defaults -/

/-- The dialect names things without a look at defaults. -/
structure Dialect.NamesWithoutDefaults (d : Dialect) : Prop where
  tableQualifier : ∀ (qualifier : String) (a : Table),
    d.tableQualifier qualifier a.withoutIdleDefaults =
      d.tableQualifier qualifier a
  sequenceName : ∀ (a : Table) (c : Column),
    d.sequenceName a.withoutIdleDefaults c.withoutIdleDefault =
      d.sequenceName a c
  numberingClause : ∀ (sequence : ObjectName) (c : Column),
    d.numberingClause sequence c.withoutIdleDefault =
      d.numberingClause sequence c

/-- Both dialects do so. -/
theorem Dialect.namesWithoutDefaults {d : Dialect}
    (dialect : d = .ansi ∨ d = .nuoDb) : d.NamesWithoutDefaults := by
  rcases dialect with rfl | rfl
  · exact ⟨fun _ _ => rfl, fun _ _ => rfl, fun _ _ => rfl⟩
  · exact ⟨fun _ _ => rfl, fun _ _ => rfl, fun _ _ => rfl⟩

namespace Target

variable {t : Target}

section Names

variable (names : t.dialect.NamesWithoutDefaults) (a : Table)

include names

/-- A default has no part in the name of its table. -/
theorem tableName_withoutIdleDefaults :
    t.tableName a.withoutIdleDefaults = t.tableName a := by
  rw [tableName, tableName, tableQualifier, names.tableQualifier]
  rfl

/-- Nor in the name of a sequence. -/
theorem sequence_withoutIdleDefaults (c : Column) :
    t.sequence a.withoutIdleDefaults c.withoutIdleDefault =
      t.sequence a c := by
  rw [sequence, names.sequenceName]
  rfl

/-- The same sequences are created. -/
theorem createSequences_withoutIdleDefaults (cs : List Column) :
    t.createSequences a.withoutIdleDefaults
        (cs.map Column.withoutIdleDefault) =
      t.createSequences a cs := by
  rw [createSequences, createSequences, List.filter_map, List.flatMap_map]
  refine List.flatMap_congr fun c _ => ?_
  rw [sequence_withoutIdleDefaults names]
  rfl

/-- The default of a column is looked at only where no sequence takes its
place. -/
theorem columnDefinition_withoutIdleDefaults (c : Column) :
    t.columnDefinition a.withoutIdleDefaults c.withoutIdleDefault =
      t.columnDefinition a c := by
  have hclause : t.numberingClause a.withoutIdleDefaults
      c.withoutIdleDefault = t.numberingClause a c := by
    rw [numberingClause, numberingClause, sequence_withoutIdleDefaults names,
      names.numberingClause]
  cases hc : c.autoNumbered with
  | true =>
      have hnumbered : c.withoutIdleDefault.autoNumbered = true := hc
      simp only [columnDefinition, hnumbered, hc, hclause, if_true]
      rfl
  | false =>
      rw [Column.withoutIdleDefault_of_not_autoNumbered hc] at hclause ⊢
      simp only [columnDefinition, hclause]
      rfl

/-- The columns of a table are defined one by one, each with its clause about
the sequence. -/
theorem columnDefinitions_withoutIdleDefaults (cs : List Column) :
    t.columnDefinitions a.withoutIdleDefaults
        (cs.map Column.withoutIdleDefault) =
      t.columnDefinitions a cs := by
  induction cs with
  | nil => rfl
  | cons c rest ih =>
      rw [List.map_cons, columnDefinitions, columnDefinitions, ih,
        columnDefinition_withoutIdleDefaults names]

/-- A table is created as if it had no idle defaults. -/
theorem deployTable_withoutIdleDefaults :
    t.deployTable a.withoutIdleDefaults = t.deployTable a := by
  have hdefinitions : t.columnDefinitions a.withoutIdleDefaults
      a.withoutIdleDefaults.columns = t.columnDefinitions a a.columns :=
    columnDefinitions_withoutIdleDefaults names a a.columns
  have hsequences : t.createSequences a.withoutIdleDefaults
      a.withoutIdleDefaults.columns = t.createSequences a a.columns :=
    createSequences_withoutIdleDefaults names a a.columns
  have hcreate : t.createTable a.withoutIdleDefaults = t.createTable a := by
    rw [createTable, createTable, hdefinitions,
      tableName_withoutIdleDefaults names,
      Table.primaryKey_withoutIdleDefaults]
    rfl
  rw [deployTable, deployTable, hcreate, hsequences,
    Table.validate_withoutIdleDefaults, tableName_withoutIdleDefaults names]
  rfl

end Names

end Target

end SchemaEvolution

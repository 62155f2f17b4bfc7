import SchemaEvolution.Dialect.Ansi
import SchemaEvolution.Proofs.Ddl.KeyLifecycle
import SchemaEvolution.Proofs.Ddl.LiveSequences
import SchemaEvolution.Proofs.Schema.PrimaryKey

/-!
# `SchemaEvolution.Proofs.Ddl.SequenceLifecycle`: sequences while tables change

There is a sequence behind every autonumbered column. Standard SQL makes
its name of the names of the table and the column, so that it changes
with either, while the sequence in the database does not: the planner
creates sequences and drops them, and never renames one. The dialects
differ in how they name sequences and in what they do to create one,
which is all that `Dialect.SequenceRules` leaves open.

* `Dialect.sequenceRules_ansi`, `Dialect.sequenceRules_nuoDb`: nothing
  else that the dialects add to the statements is about sequences.
* `Target.events_addColumn` and its siblings: what the planner writes
  about sequences, one lemma for each kind of edit.
* `Target.events_planChange`: sequences are dropped and created with
  tables and columns that go and come, and in no other change.
-/

set_option autoImplicit false

namespace SchemaEvolution

open SchemaEvolution.Text

/-! ### Dialects and sequences -/

/-- To create a sequence comes to the events of `claim`, and nothing else
that the dialect adds to a plan is about sequences. The name of a
sequence hangs on the name of its table and on the name and the first
number of its column. -/
structure Dialect.SequenceRules (d : Dialect)
    (claim : ObjectName → List SequenceEvent) : Prop where
  sequenceName : ∀ {a b : Table} {c e : Column}, a.name = b.name →
    c.name = e.name → c.firstNumber = e.firstNumber →
    d.sequenceName a c = d.sequenceName b e
  createSequence : ∀ sequence start,
    sequenceEvents (d.createSequence sequence start) = claim sequence
  addIndex : ∀ table i, sequenceEvents (d.addIndex table i) = []
  dropIndex : ∀ table i, sequenceEvents (d.dropIndex table i) = []
  releaseIndex : ∀ table i, sequenceEvents (d.releaseIndex table i) = []
  columnAdded : ∀ {table c default? added},
    d.columnAdded table c default? = .ok added → sequenceEvents added = []
  columnDropped : ∀ table c, sequenceEvents (d.columnDropped table c) = []

/-- Standard SQL just creates a sequence. -/
theorem Dialect.sequenceRules_ansi :
    Dialect.ansi.SequenceRules fun q => [.created q] where
  sequenceName := by
    intro a b c e htable hcolumn _
    simp only [ansi, htable, hcolumn]
  createSequence := fun _ _ => rfl
  addIndex := fun _ _ => rfl
  dropIndex := fun _ _ => rfl
  releaseIndex := fun _ _ => rfl
  columnAdded := by
    intro table c default? added hadded
    cases hadded
    rfl
  columnDropped := fun _ _ => rfl

/-- NuoDB makes way for the sequence that it creates. -/
theorem Dialect.sequenceRules_nuoDb :
    Dialect.nuoDb.SequenceRules fun q => [.dropped q, .created q] where
  sequenceName := by
    intro a b c e htable _ hfirst
    simp only [nuoDb, htable, hfirst]
  createSequence := fun _ _ => rfl
  addIndex := fun _ _ => rfl
  dropIndex := fun _ _ => rfl
  releaseIndex := fun _ _ => rfl
  columnAdded := by
    intro table c default? added hadded
    rcases NuoDb.columnAdded_eq_ok hadded with rfl | ⟨value, rfl⟩
    · rfl
    · rfl
  columnDropped := fun _ _ => rfl

/-! ### Sequences of tables -/

namespace Target

variable {t : Target} {claim : ObjectName → List SequenceEvent}

/-- The sequences behind those of the columns that are autonumbered. -/
def sequencesFor (t : Target) (table : Table) (columns : List Column) :
    List ObjectName :=
  (columns.filter Column.autoNumbered).map (t.sequence table)

/-- The sequences that a table refers to. -/
def sequencesOf (t : Target) (table : Table) : List ObjectName :=
  t.sequencesFor table table.columns

/-- Columns in a row have the sequences of each part, in the order of the
columns. -/
theorem sequencesFor_append (table : Table) (cs ds : List Column) :
    t.sequencesFor table (cs ++ ds) =
      t.sequencesFor table cs ++ t.sequencesFor table ds := by
  simp [sequencesFor]

/-- Of a table, only its name goes into the names of its sequences. -/
theorem sequencesFor_congr (ansi : t.dialect = .ansi) {a b : Table}
    (hname : a.name = b.name) (columns : List Column) :
    t.sequencesFor a columns = t.sequencesFor b columns := by
  refine List.map_congr_left fun c _ => ?_
  simp only [sequence, ansi, Dialect.ansi, hname]

/-! ### What the planner does to sequences -/

/-- Statements that are written one part for each of several things are
about sequences as the parts are. -/
theorem events_flatMap {α : Type} (f : α → List Ddl) (xs : List α) :
    sequenceEvents (xs.flatMap f) =
      xs.flatMap fun x => sequenceEvents (f x) := by
  induction xs with
  | nil => rfl
  | cons x rest ih =>
      rw [List.flatMap_cons, sequenceEvents_append, ih, List.flatMap_cons]

/-- Parts that are about no sequence are so together. -/
theorem events_flatMap_eq_nil {α : Type} {f : α → List Ddl}
    (h : ∀ x, sequenceEvents (f x) = []) (xs : List α) :
    sequenceEvents (xs.flatMap f) = [] := by
  rw [events_flatMap]
  exact List.flatMap_eq_nil_iff.mpr fun x _ => h x

/-- Each sequence that is created is claimed as the dialect does it, in the
order of the columns. -/
theorem events_createSequences (rules : t.dialect.SequenceRules claim)
    (table : Table) (columns : List Column) :
    sequenceEvents (t.createSequences table columns) =
      (t.sequencesFor table columns).flatMap claim := by
  simp only [createSequences, sequencesFor, events_flatMap,
    rules.createSequence, List.flatMap_map]

/-- Each sequence of the columns is dropped, and no other. -/
theorem events_dropSequences (table : Table) (columns : List Column) :
    sequenceEvents (t.dropSequences table columns) =
      (t.sequencesFor table columns).map .dropped := by
  simp [sequenceEvents, dropSequences, sequencesFor, List.filterMap_map,
    Function.comp_def, Ddl.sequenceEvent?]

/-- A statement that is about no sequence leaves no event. -/
theorem events_cons_of_none {d : Ddl} (h : d.sequenceEvent? = none)
    (rest : List Ddl) : sequenceEvents (d :: rest) = sequenceEvents rest :=
  List.filterMap_cons_none h

/-- What is written about a key is about no sequence. -/
theorem events_dropKey (c : Prop) [Decidable c] (table : Table) :
    sequenceEvents (if c then [t.dropKey table] else []) = [] := by
  split <;> rfl

/-- The key that is added, if there is any, is about no sequence. -/
theorem events_addKey (table : Table) (columns : List String) :
    sequenceEvents (t.addKey table columns) = [] := by
  unfold addKey
  split <;> rfl

/-- Neither is one that is added on a condition. -/
theorem events_ite_addKey (c : Prop) [Decidable c] (table : Table)
    (columns : List String) :
    sequenceEvents (if c then t.addKey table columns else []) = [] := by
  split
  · exact events_addKey table columns
  · rfl

/-- A table is deployed with its sequences. -/
theorem events_deployTable (rules : t.dialect.SequenceRules claim)
    {table : Table} {ds : List Ddl}
    (written : t.deployTable table = .ok ds) :
    sequenceEvents ds = (t.sequencesOf table).flatMap claim := by
  obtain ⟨-, -, h⟩ := bind_eq_ok_iff.mp written
  obtain ⟨created, hcreated, h⟩ := bind_eq_ok_iff.mp h
  obtain ⟨definitions, -, hcreated⟩ := bind_eq_ok_iff.mp hcreated
  cases hcreated
  cases h
  rw [sequenceEvents_append, sequenceEvents_append,
    events_flatMap_eq_nil (rules.addIndex _), events_createSequences rules]
  exact (List.append_nil _).trans (List.append_nil _)

/-- A table is dropped with its sequences. -/
theorem events_dropTable (rules : t.dialect.SequenceRules claim)
    {table : Table} {ds : List Ddl} (written : t.dropTable table = .ok ds) :
    sequenceEvents ds = (t.sequencesOf table).map .dropped := by
  obtain ⟨-, -, h⟩ := bind_eq_ok_iff.mp written
  cases h
  rw [sequenceEvents_append, sequenceEvents_append,
    events_flatMap_eq_nil (rules.releaseIndex _), events_dropSequences]
  exact List.append_nil _

/-- A column is added with its sequence. -/
theorem events_addColumn (rules : t.dialect.SequenceRules claim)
    {table : Table} {c : Column} {ds : List Ddl}
    (written : t.addColumn table c = .ok ds) :
    sequenceEvents ds = (t.sequencesFor table [c]).flatMap claim := by
  obtain ⟨definition, added, hadded, rfl⟩ := addColumn_eq_ok written
  simp only [sequenceEvents_append, events_createSequences rules,
    events_dropKey, events_ite_addKey, rules.columnAdded hadded,
    List.nil_append, List.append_nil]
  exact List.append_nil _

/-- A column is dropped with its sequence. -/
theorem events_dropColumn (rules : t.dialect.SequenceRules claim)
    {table : Table} {c : Column} {ds : List Ddl}
    (written : t.dropColumn table c = .ok ds) :
    sequenceEvents ds = (t.sequencesFor table [c]).map .dropped := by
  obtain rfl := dropColumn_eq_ok written
  have hdropped : sequenceEvents (.dropColumn (t.tableName table) c.name ::
      t.dropSequences table [c]) = _ :=
    (events_cons_of_none rfl _).trans (events_dropSequences table [c])
  simp only [sequenceEvents_append, hdropped, events_dropKey,
    events_ite_addKey, rules.columnDropped, List.nil_append,
    List.append_nil]

/-- A column that is changed where it stands keeps its sequence, whatever
becomes of its name. -/
theorem events_changeInPlace {table : Table} {source target : Column}
    {ds : List Ddl} (written : t.changeInPlace table source target = .ok ds) :
    sequenceEvents ds = [] := by
  obtain ⟨retyped, alterations, hretyped, rfl⟩ :=
    changeInPlace_eq_ok written
  have haltered : sequenceEvents (alterations.map
      (.alterColumn (t.tableName table) target.name)) = [] :=
    sequenceEvents_eq_nil fun st hst => by
      obtain ⟨alteration, -, rfl⟩ := List.mem_map.mp hst
      rfl
  rw [sequenceEvents_append, sequenceEvents_append, haltered]
  rcases hretyped with rfl | ⟨type, rfl⟩ <;> split <;> rfl

/-- A column that gives way to another is dropped with its sequence, and
the other is added with its own. -/
theorem events_replaceColumn (rules : t.dialect.SequenceRules claim)
    {table : Table} {source target : Column} {ds : List Ddl}
    (written : t.replaceColumn table source target = .ok ds) :
    sequenceEvents ds = (t.sequencesFor table [source]).map .dropped ++
      (t.sequencesFor table [target]).flatMap claim := by
  obtain ⟨dropped, hdropped, h⟩ := bind_eq_ok_iff.mp written
  obtain ⟨added, hadded, h⟩ := bind_eq_ok_iff.mp h
  cases h
  rw [sequenceEvents_append, events_dropColumn rules hdropped,
    events_addColumn rules hadded]
  -- Whether a column is in the key does not show in its sequence.
  have hkey : ∀ c : Column,
      t.sequencesFor table [{ c with inKey := false }] =
        t.sequencesFor table [c] := by
    intro c
    have hname : t.sequence table { c with inKey := false } =
        t.sequence table c :=
      congrArg (ObjectName.mk _) (rules.sequenceName rfl rfl rfl)
    simp only [sequencesFor, List.filter_cons, List.filter_nil]
    split
    · simp only [List.map_cons, List.map_nil, hname]
    · rfl
  rw [hkey, hkey]

/-- A column that starts or stops numbering itself gives way to a new
one; any other is changed where it stands. -/
theorem events_changeColumn (rules : t.dialect.SequenceRules claim)
    {table : Table} {source target : Column} {ds : List Ddl}
    (written : t.changeColumn table source target = .ok ds) :
    sequenceEvents ds =
      if source.autoNumbered = target.autoNumbered then []
      else (t.sequencesFor table [source]).map .dropped ++
        (t.sequencesFor table [target]).flatMap claim := by
  obtain ⟨changed, hchanged, rfl⟩ := changeColumn_eq_ok written
  have hindexes := events_flatMap_eq_nil
    (f := t.dropIndex table) (rules.dropIndex (t.tableName table))
    (table.indexesOn [source.name, target.name])
  have hcreated : sequenceEvents ((table.indexesOn
      [source.name, target.name]).map (t.createIndex table)) = [] :=
    sequenceEvents_eq_nil fun st hst => by
      obtain ⟨i, -, rfl⟩ := List.mem_map.mp hst
      rfl
  simp only [sequenceEvents_append, hindexes, hcreated, events_dropKey,
    events_ite_addKey, List.nil_append, List.append_nil]
  rcases hchanged with ⟨hauto, hchanged⟩ | ⟨hauto, hchanged⟩
  · rw [if_pos hauto, events_changeInPlace hchanged]
  · rw [if_neg hauto, events_replaceColumn rules hchanged]

end Target

namespace SchemaChange

/-- The sequences that are dropped with a change. -/
def released (t : Target) : SchemaChange → List ObjectName
  | .removeTable table => t.sequencesOf table
  | .removeColumn table c => t.sequencesFor table [c]
  | .changeColumn table source target =>
      if source.autoNumbered = target.autoNumbered then []
      else t.sequencesFor table [source]
  | _ => []

/-- The sequences that are created with a change. -/
def claimed (t : Target) : SchemaChange → List ObjectName
  | .addTable table => t.sequencesOf table
  | .addColumn table c => t.sequencesFor table [c]
  | .changeColumn table source target =>
      if source.autoNumbered = target.autoNumbered then []
      else t.sequencesFor table [target]
  | _ => []

end SchemaChange

namespace Target

variable {t : Target}

/-- Sequences are dropped and created with tables and columns that go and
come, and in no other change. -/
theorem events_planChange_of_rules {claim : ObjectName → List SequenceEvent}
    (rules : t.dialect.SequenceRules claim) {change : SchemaChange}
    {ds : List Ddl} (written : t.planChange change = .ok ds) :
    sequenceEvents ds = (change.released t).map .dropped ++
      (change.claimed t).flatMap claim := by
  cases change with
  | addTable table => exact events_deployTable rules written
  | removeTable table =>
      rw [events_dropTable rules written]
      exact (List.append_nil _).symm
  -- A table that is renamed has none of its sequences made or dropped.
  | renameTable source target =>
      obtain ⟨-, -, h⟩ := bind_eq_ok_iff.mp written
      obtain ⟨-, -, h⟩ := bind_eq_ok_iff.mp h
      cases h
      rw [sequenceEvents_append, sequenceEvents_append, events_addKey]
      split <;> rfl
  | addColumn table c => exact events_addColumn rules written
  -- Sequences come and go only with a column that begins or ceases to be
  -- autonumbered.
  | changeColumn table source target =>
      rw [events_changeColumn rules written, SchemaChange.released,
        SchemaChange.claimed]
      split <;> rfl
  | removeColumn table c =>
      rw [events_dropColumn rules written]
      exact (List.append_nil _).symm
  -- Indexes and keys have nothing to do with sequences.
  | addIndex table i =>
      obtain ⟨-, -, h⟩ := bind_eq_ok_iff.mp written
      cases h
      exact rules.addIndex _ _
  | removeIndex table i =>
      obtain ⟨-, -, h⟩ := bind_eq_ok_iff.mp written
      cases h
      exact rules.dropIndex _ _
  | renameIndex table source target =>
      obtain ⟨rename, -, h⟩ := bind_eq_ok_iff.mp written
      cases h
      rw [sequenceEvents_append, dropIndex, rules.dropIndex]
      rfl
  | changePrimaryKey table source target =>
      obtain ⟨-, -, h⟩ := bind_eq_ok_iff.mp written
      cases h
      rw [sequenceEvents_append, events_addKey]
      split <;> rfl
  | removeView view =>
      obtain ⟨-, -, h⟩ := bind_eq_ok_iff.mp written
      cases h
      rfl

/-- In standard SQL a sequence that is created is just created. -/
theorem events_planChange (ansi : t.dialect = .ansi)
    {change : SchemaChange} {ds : List Ddl}
    (written : t.planChange change = .ok ds) :
    sequenceEvents ds = (change.released t).map .dropped ++
      (change.claimed t).map .created := by
  have rules : t.dialect.SequenceRules fun q => [.created q] :=
    ansi ▸ Dialect.sequenceRules_ansi
  rw [events_planChange_of_rules rules written, List.map_eq_flatMap
    (f := SequenceEvent.created)]

end Target

end SchemaEvolution

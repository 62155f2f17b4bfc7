import SchemaEvolution.Proofs.Ddl.SequenceLifecycle
import SchemaEvolution.Proofs.Upgrade.Plans

/-!
# `SchemaEvolution.Proofs.Upgrade.Sequences`: the sequences of an upgrade

The tables of a snapshot refer to sequences, and the database has
sequences that were created and not dropped. A sequence is referred to
by the names that its table and its column have now, and was created
under the names that they had then. The two agree as long as no edit
comes between them.

* `Target.Moves.withTable`, `Target.Moves.of_same`: what a change of one
  table moves; from these, one lemma for each kind of edit.
* `Target.moves_of_keeps`: an edit that leaves autonumbered columns under
  their names moves the sequences as its change says.
* `Target.keeps_of_toFinset_eq`: an edit that does not leave them there
  moves the sequences, too, and its change says nothing of it.
* `Target.run_planChange_iff`: both together, in the database.
* `Runner.sequences_follow`: the same for all calls of an upgrade.
* `account_sequence_lost`: a table that is renamed with an autonumbered
  column in it.
-/

set_option autoImplicit false

namespace SchemaEvolution

open SchemaEvolution.Calendar
open SchemaEvolution.Text

/-- The sequences that the tables of a snapshot refer to. -/
def Snapshot.sequences (s : Snapshot) (t : Target) : List ObjectName :=
  s.tables.flatMap t.sequencesOf

/-- The edit leaves every autonumbered column under the names that its
sequence is called by: those of its table and of itself. -/
def SchemaEdit.KeepsNumberedNames (s : Snapshot) : SchemaEdit → Prop
  | .renameTable source target =>
      ∀ table ∈ s.table? source,
        (∃ c ∈ table.columns, c.autoNumbered = true) →
          table.name = target
  | .changeColumn name column target =>
      ∀ table ∈ s.table? name, ∀ c ∈ table.column? column,
        c.autoNumbered = true → target.autoNumbered = true →
          c.name = target.name
  | _ => True

instance (s : Snapshot) : (edit : SchemaEdit) →
    Decidable (edit.KeepsNumberedNames s)
  | .renameTable source target =>
      inferInstanceAs (Decidable (∀ table ∈ s.table? source,
        (∃ c ∈ table.columns, c.autoNumbered = true) →
          table.name = target))
  | .changeColumn name column target =>
      inferInstanceAs (Decidable (∀ table ∈ s.table? name,
        ∀ c ∈ table.column? column, c.autoNumbered = true →
          target.autoNumbered = true → c.name = target.name))
  | .addTable _ | .removeTable _ | .addColumn _ _ | .removeColumn _ _
  | .addIndex _ _ | .removeIndex _ _ | .renameIndex _ _ _
  | .changePrimaryKey _ _ | .removeView _ => .isTrue trivial

/-! ### Names of sequences -/

namespace Target

variable {t : Target}

theorem base_sequence (ansi : t.dialect = .ansi) (table : Table)
    (c : Column) :
    (t.sequence table c).base.toList =
      table.name.toList ++ ("_" ++ c.name ++ "_SEQ").toList := by
  simp [sequence, ansi, Dialect.ansi]

/-- Under one table, the name of a sequence tells the column. -/
theorem sequence_inj (ansi : t.dialect = .ansi) {table : Table}
    {c d : Column} (h : t.sequence table c = t.sequence table d) :
    c.name = d.name := by
  have hbase := congrArg (fun n => n.base.toList) h
  simp only [base_sequence ansi, List.append_cancel_left_eq,
    String.toList_append, List.append_cancel_right_eq] at hbase
  exact String.toList_inj.mp hbase

/-- The letters in the names of a table's sequences. -/
theorem length_letters_sequences (ansi : t.dialect = .ansi) (table : Table)
    (columns : List Column) :
    ((columns.map (t.sequence table)).flatMap fun n =>
        n.base.toList).length =
      columns.length * table.name.toList.length +
        (columns.flatMap fun c =>
          ("_" ++ c.name ++ "_SEQ").toList).length := by
  induction columns with
  | nil => simp
  | cons c rest ih =>
      simp only [List.map_cons, List.flatMap_cons, ih, base_sequence ansi,
        List.length_append, List.length_cons, Nat.succ_mul]
      omega

/-- A table under another name refers to other sequences, if it refers to
any. There are as many letters in the names of both, and so in the names
of the two tables, so that one sequence tells which table it belongs
to. -/
theorem name_eq_of_sequences_perm (ansi : t.dialect = .ansi)
    {a b : Table} {columns : List Column} {c : Column}
    (hc : c ∈ columns)
    (h : (columns.map (t.sequence a)).Perm
      (columns.map (t.sequence b))) : a.name = b.name := by
  have hlength : a.name.toList.length = b.name.toList.length := by
    have hletters := (h.flatMap_right fun n => n.base.toList).length_eq
    rw [length_letters_sequences ansi, length_letters_sequences ansi,
      Nat.add_right_cancel_iff] at hletters
    exact Nat.eq_of_mul_eq_mul_left (List.length_pos_of_mem hc) hletters
  obtain ⟨d, -, hd⟩ := List.mem_map.mp
    (h.subset (List.mem_map_of_mem hc))
  have hbase := congrArg (fun n => n.base.toList) hd.symm
  simp only [base_sequence ansi] at hbase
  exact String.toList_inj.mp (List.append_inj_left hbase hlength)

/-- A table with the same columns under the same name refers to the same
sequences. -/
theorem sequencesOf_congr (ansi : t.dialect = .ansi) {a b : Table}
    (hname : a.name = b.name) (hcolumns : a.columns = b.columns) :
    t.sequencesOf a = t.sequencesOf b := by
  rw [sequencesOf, sequencesOf, hcolumns, sequencesFor_congr ansi hname]

/-! ### Sequences of a snapshot -/

/-- The sequences of one table, and those of the others. -/
theorem sequences_split {s : Snapshot} {name : String} {table : Table}
    (found : s.table? name = some table) :
    ∃ others, (s.sequences t).Perm (t.sequencesOf table ++ others) ∧
      (∀ new, ((s.withTable name new).sequences t).Perm
        (t.sequencesOf new ++ others)) ∧
      Snapshot.sequences { s with
        tables := s.tables.eraseP fun u => SameName u.name name } t =
          others := by
  obtain ⟨hname, before, after, hsplit, hbefore, hnew⟩ :=
    Snapshot.tables_eq_append_of_table? found
  have hperm : ∀ u, ((before ++ u :: after).flatMap t.sequencesOf).Perm
      (t.sequencesOf u ++ (before ++ after).flatMap t.sequencesOf) := by
    intro u
    rw [← List.flatMap_cons]
    exact List.perm_middle.flatMap_right _
  refine ⟨(before ++ after).flatMap t.sequencesOf, ?_, ?_, ?_⟩
  · rw [Snapshot.sequences, hsplit]
    exact hperm table
  · intro new
    rw [Snapshot.sequences, hnew]
    exact hperm new
  · show (s.tables.eraseP _).flatMap _ = _
    rw [Snapshot.eraseP_tables hsplit hbefore hname]

/-- The sequences of a table are those of its columns, split at one of
them. -/
theorem sequencesOf_split {table : Table} {before after : List Column}
    {c : Column} (hcolumns : table.columns = before ++ c :: after) :
    (t.sequencesOf table).Perm (t.sequencesFor table [c] ++
      t.sequencesFor table (before ++ after)) := by
  rw [sequencesOf, hcolumns, ← sequencesFor_append]
  exact (List.perm_middle.filter _).map _

/-- The change moves the sequences of `s` to those of `next`: those that
are dropped with it go, those that are created with it come. -/
def Moves (t : Target) (s next : Snapshot) (change : SchemaChange) :
    Prop :=
  ∃ kept, (s.sequences t).Perm (change.released t ++ kept) ∧
    (next.sequences t).Perm (change.claimed t ++ kept)

/-- A change of one table moves the sequences of a snapshot as it moves
those of the table. -/
theorem Moves.withTable {s : Snapshot} {name : String}
    {table new : Table} {change : SchemaChange}
    (found : s.table? name = some table)
    (h : ∃ kept, (t.sequencesOf table).Perm (change.released t ++ kept) ∧
      (t.sequencesOf new).Perm (change.claimed t ++ kept)) :
    t.Moves s (s.withTable name new) change := by
  obtain ⟨others, hbefore, hafter, -⟩ := sequences_split (t := t) found
  obtain ⟨kept, hold, hnew⟩ := h
  refine ⟨kept ++ others, ?_, ?_⟩
  · rw [← List.append_assoc]
    exact hbefore.trans (hold.append_right _)
  · rw [← List.append_assoc]
    exact (hafter new).trans (hnew.append_right _)

/-- A table with as many sequences under the same names moves none. -/
theorem Moves.of_same {s : Snapshot} {name : String}
    {table new : Table} {change : SchemaChange}
    (found : s.table? name = some table)
    (hreleased : change.released t = []) (hclaimed : change.claimed t = [])
    (h : (t.sequencesOf new).Perm (t.sequencesOf table)) :
    t.Moves s (s.withTable name new) change := by
  refine Moves.withTable found ⟨t.sequencesOf table, ?_, ?_⟩
  · rw [hreleased, List.nil_append]
  · rw [hclaimed, List.nil_append]
    exact h

section Edits

variable {s next : Snapshot} {name column : String} {c : Column}
  {change : SchemaChange}

/-- A table that is added brings its sequences. -/
theorem moves_addTable {table : Table}
    (accepted : s.apply (.addTable table) = .ok (change, next)) :
    t.Moves s next change := by
  obtain ⟨-, -, rfl, rfl⟩ := Snapshot.apply_addTable.mp accepted
  refine ⟨s.sequences t, by rfl, ?_⟩
  show ((s.tables ++ [table]).flatMap t.sequencesOf).Perm _
  rw [List.flatMap_append, List.flatMap_singleton]
  exact List.perm_append_comm

/-- A table that is removed takes its sequences with it. -/
theorem moves_removeTable
    (accepted : s.apply (.removeTable name) = .ok (change, next)) :
    t.Moves s next change := by
  obtain ⟨table, found, rfl, rfl⟩ := Snapshot.apply_removeTable.mp accepted
  obtain ⟨others, hbefore, -, hafter⟩ := sequences_split (t := t) found
  exact ⟨others, hbefore, by rw [hafter]; rfl⟩

/-- A table that is renamed keeps its sequences if there are none, or if
the name is the old one. -/
theorem moves_renameTable {source target : String}
    (accepted : s.apply (.renameTable source target) = .ok (change, next))
    (keeps : (SchemaEdit.renameTable source target).KeepsNumberedNames s) :
    t.Moves s next change := by
  obtain ⟨table, found, -, -, rfl, rfl⟩ :=
    Snapshot.apply_renameTable.mp accepted
  refine Moves.of_same found rfl rfl ?_
  by_cases hnumbered : ∃ c ∈ table.columns, c.autoNumbered = true
  · obtain rfl := keeps table found hnumbered
    exact .refl _
  · have hnone : table.columns.filter Column.autoNumbered = [] := by
      simpa using hnumbered
    simp [sequencesOf, sequencesFor, hnone]

/-- A column that is added brings its sequence. -/
theorem moves_addColumn (ansi : t.dialect = .ansi)
    (accepted : s.apply (.addColumn name c) = .ok (change, next)) :
    t.Moves s next change := by
  obtain ⟨table, found, -, -, rfl, rfl⟩ :=
    Snapshot.apply_addColumn.mp accepted
  refine Moves.withTable found ⟨t.sequencesOf table, by rfl, ?_⟩
  have hcolumns : (table.withColumn c).columns =
      table.columns ++ c :: [] := rfl
  have hsplit := sequencesOf_split (t := t) hcolumns
  have hold : t.sequencesFor (table.withColumn c) table.columns =
      t.sequencesOf table :=
    sequencesFor_congr ansi (a := table.withColumn c) (b := table) rfl _
  rw [List.append_nil, hold] at hsplit
  exact hsplit

/-- A column that goes on being autonumbered under its name has the
sequence that it had. -/
theorem sequencesFor_eq_of_name_eq (ansi : t.dialect = .ansi)
    {table : Table} {source target : Column}
    (hauto : source.autoNumbered = target.autoNumbered)
    (hname : target.autoNumbered = true → source.name = target.name) :
    t.sequencesFor table [source] = t.sequencesFor table [target] := by
  cases htarget : target.autoNumbered with
  | false => simp [sequencesFor, hauto, htarget]
  | true =>
      simp [sequencesFor, hauto, htarget, sequence, ansi, Dialect.ansi,
        hname htarget]

/-- A column that changes keeps its sequence, loses it or gets one. -/
theorem moves_changeColumn (ansi : t.dialect = .ansi)
    (accepted : s.apply (.changeColumn name column c) = .ok (change, next))
    (keeps : (SchemaEdit.changeColumn name column c).KeepsNumberedNames
      s) : t.Moves s next change := by
  obtain ⟨table, found, source, hcolumn, -, -, rfl, rfl⟩ :=
    Snapshot.apply_changeColumn.mp accepted
  obtain ⟨hsource, front, back, hsplit, hfront⟩ :=
    Table.columns_eq_append_of_column? hcolumn
  have hnew := sequencesOf_split (t := t)
    (Table.columns_withColumnReplaced c hsplit hfront hsource)
  have hold := sequencesOf_split (t := t) hsplit
  have hname : ∀ columns, t.sequencesFor table columns =
      t.sequencesFor (table.withColumnReplaced column c) columns :=
    sequencesFor_congr ansi rfl
  rw [hname, hname] at hold
  by_cases hauto : source.autoNumbered = c.autoNumbered
  · rw [sequencesFor_eq_of_name_eq ansi hauto fun htarget =>
      keeps table found source hcolumn (hauto.trans htarget) htarget]
      at hold
    exact Moves.of_same found (if_pos hauto) (if_pos hauto)
      (hnew.trans hold.symm)
  · refine Moves.withTable found ⟨t.sequencesFor
      (table.withColumnReplaced column c) (front ++ back), ?_, ?_⟩
    · rw [SchemaChange.released, if_neg hauto]
      exact hold
    · rw [SchemaChange.claimed, if_neg hauto]
      exact hnew

/-- A column that is removed takes its sequence with it. -/
theorem moves_removeColumn (ansi : t.dialect = .ansi) (wf : s.WellFormed)
    (accepted : s.apply (.removeColumn name column) = .ok (change, next)) :
    t.Moves s next change := by
  obtain ⟨table, found, removed, hcolumn, -, rfl, rfl⟩ :=
    Snapshot.apply_removeColumn.mp accepted
  obtain ⟨hremoved, front, back, hsplit, -⟩ :=
    Table.columns_eq_append_of_column? hcolumn
  have hdistinct := wf.distinctNames_of_table? found
  rw [hsplit] at hdistinct
  have hcolumns := Table.columns_withoutColumn hsplit
    (fun d hd => hdistinct.not_sameName hd) hremoved
  have hold := sequencesOf_split (t := t) hsplit
  have hname : ∀ columns, t.sequencesFor table columns =
      t.sequencesFor (table.withoutColumn column) columns :=
    sequencesFor_congr ansi rfl
  rw [hname, hname] at hold
  refine Moves.withTable found ⟨_, hold, ?_⟩
  rw [sequencesOf, hcolumns]
  exact .refl _

/-- A new key moves columns, and none of them to another name. -/
theorem moves_changePrimaryKey (ansi : t.dialect = .ansi)
    (wf : s.WellFormed) {columns : List String}
    (accepted : s.apply (.changePrimaryKey name columns) =
      .ok (change, next)) : t.Moves s next change := by
  obtain ⟨table, found, -, -, rfl, rfl⟩ :=
    Snapshot.apply_changePrimaryKey.mp accepted
  refine Moves.of_same found rfl rfl ?_
  have hcolumns : (table.withPrimaryKey columns).columns.Perm _ :=
    Table.columns_withPrimaryKey_perm (wf.distinctNames_of_table? found)
  have hmarked : t.sequencesFor (table.withPrimaryKey columns)
      (table.columns.map (Table.markKey columns)) =
        t.sequencesOf table := by
    simp [sequencesOf, sequencesFor, List.filter_map,
      Function.comp_def, Table.markKey, sequence, ansi, Dialect.ansi,
      Table.withPrimaryKey]
  rw [← hmarked]
  exact (hcolumns.filter _).map _

/-- Other indexes move no sequences. -/
theorem moves_withIndexes (ansi : t.dialect = .ansi) {table new : Table}
    (found : s.table? name = some table) (hname : new.name = table.name)
    (hcolumns : new.columns = table.columns)
    (hreleased : change.released t = [])
    (hclaimed : change.claimed t = []) :
    t.Moves s (s.withTable name new) change :=
  Moves.of_same found hreleased hclaimed
    (.of_eq (sequencesOf_congr ansi hname hcolumns))

end Edits

/-- An edit that leaves autonumbered columns under their names moves the
sequences as its change says. -/
theorem moves_of_keeps (ansi : t.dialect = .ansi) {s next : Snapshot}
    (wf : s.WellFormed) {edit : SchemaEdit} {change : SchemaChange}
    (accepted : s.apply edit = .ok (change, next))
    (keeps : edit.KeepsNumberedNames s) : t.Moves s next change := by
  cases edit with
  | addTable table => exact moves_addTable accepted
  | removeTable name => exact moves_removeTable accepted
  | renameTable source target => exact moves_renameTable accepted keeps
  | addColumn name c => exact moves_addColumn ansi accepted
  | changeColumn name column target =>
      exact moves_changeColumn ansi accepted keeps
  | removeColumn name column => exact moves_removeColumn ansi wf accepted
  | changePrimaryKey name columns =>
      exact moves_changePrimaryKey ansi wf accepted
  | addIndex name i =>
      obtain ⟨table, found, -, -, rfl, rfl⟩ :=
        Snapshot.apply_addIndex.mp accepted
      exact moves_withIndexes ansi found rfl rfl rfl rfl
  | removeIndex name index =>
      obtain ⟨table, found, removed, -, -, rfl, rfl⟩ :=
        Snapshot.apply_removeIndex.mp accepted
      exact moves_withIndexes ansi found rfl rfl rfl rfl
  | renameIndex name source target =>
      obtain ⟨table, found, existing, -, -, -, rfl, rfl⟩ :=
        Snapshot.apply_renameIndex.mp accepted
      exact moves_withIndexes ansi found rfl rfl rfl rfl
  | removeView name =>
      obtain ⟨view, -, rfl, rfl⟩ := Snapshot.apply_removeView.mp accepted
      exact ⟨s.sequences t, .refl _, .refl _⟩

/-- An edit that takes an autonumbered column to another name says
nothing about sequences. -/
theorem released_claimed_of_not_keeps {s next : Snapshot}
    {edit : SchemaEdit} {change : SchemaChange}
    (accepted : s.apply edit = .ok (change, next))
    (moved : ¬ edit.KeepsNumberedNames s) :
    change.released t = [] ∧ change.claimed t = [] := by
  cases edit with
  | renameTable source target =>
      obtain ⟨table, -, -, -, rfl, -⟩ :=
        Snapshot.apply_renameTable.mp accepted
      exact ⟨rfl, rfl⟩
  | changeColumn name column target =>
      obtain ⟨table, found, source, hcolumn, -, -, rfl, -⟩ :=
        Snapshot.apply_changeColumn.mp accepted
      -- The column was autonumbered and is to stay so.
      have hauto : source.autoNumbered = target.autoNumbered := by
        by_contra hauto
        refine moved fun table' found' c hc hnumbered htarget => ?_
        obtain rfl : table = table' := by simpa [found] using found'
        obtain rfl : source = c := by simpa [hcolumn] using hc
        exact absurd (hnumbered.trans htarget.symm) hauto
      rw [SchemaChange.released, SchemaChange.claimed, if_pos hauto,
        if_pos hauto]
      exact ⟨rfl, rfl⟩
  | addTable table => exact absurd trivial moved
  | removeTable name => exact absurd trivial moved
  | addColumn name c => exact absurd trivial moved
  | removeColumn name column => exact absurd trivial moved
  | addIndex name i => exact absurd trivial moved
  | removeIndex name index => exact absurd trivial moved
  | renameIndex name source target => exact absurd trivial moved
  | changePrimaryKey name columns => exact absurd trivial moved
  | removeView name => exact absurd trivial moved

/-- Where one table was exchanged and the sequences are the same, those of
the table are. -/
theorem sequencesOf_perm_of_toFinset_eq {s : Snapshot} {name : String}
    {table new : Table} (found : s.table? name = some table)
    (apart : (s.sequences t).Nodup)
    (hlength : (t.sequencesOf new).length = (t.sequencesOf table).length)
    (h : (s.sequences t).toFinset =
      ((s.withTable name new).sequences t).toFinset) :
    (t.sequencesOf table).Perm (t.sequencesOf new) := by
  obtain ⟨others, hbefore, hafter, -⟩ := sequences_split (t := t) found
  have hperm := LiveSequences.perm_of_toFinset_eq apart (by
    rw [(hafter new).length_eq, hbefore.length_eq, List.length_append,
      List.length_append, hlength]) h
  exact (List.perm_append_right_iff others).mp
    (hbefore.symm.trans (hperm.trans (hafter new)))

/-- An edit after which the sequences are the same has left autonumbered
columns under their names. -/
theorem keeps_of_toFinset_eq (ansi : t.dialect = .ansi)
    {s next : Snapshot} {edit : SchemaEdit} {change : SchemaChange}
    (apart : (s.sequences t).Nodup)
    (accepted : s.apply edit = .ok (change, next))
    (h : (s.sequences t).toFinset = (next.sequences t).toFinset) :
    edit.KeepsNumberedNames s := by
  cases edit with
  | renameTable source target =>
      obtain ⟨table, found, -, -, rfl, rfl⟩ :=
        Snapshot.apply_renameTable.mp accepted
      rintro table' found' ⟨c, hc, hnumbered⟩
      obtain rfl : table = table' := by simpa [found] using found'
      have hperm := sequencesOf_perm_of_toFinset_eq found apart
        (by simp [sequencesOf, sequencesFor]) h
      exact name_eq_of_sequences_perm ansi
        (List.mem_filter.mpr ⟨hc, hnumbered⟩) hperm
  | changeColumn name column target =>
      obtain ⟨table, found, source, hcolumn, -, -, rfl, rfl⟩ :=
        Snapshot.apply_changeColumn.mp accepted
      intro table' found' c hc hnumbered htarget
      obtain rfl : table = table' := by simpa [found] using found'
      obtain rfl : source = c := by simpa [hcolumn] using hc
      obtain ⟨hsource, front, back, hsplit, hfront⟩ :=
        Table.columns_eq_append_of_column? hcolumn
      have hcolumns := Table.columns_withColumnReplaced target hsplit
        hfront hsource
      have hperm := sequencesOf_perm_of_toFinset_eq found apart (by
        simp [sequencesOf, sequencesFor, hsplit, hcolumns, hnumbered,
          htarget]) h
      have hold := sequencesOf_split (t := t) hsplit
      have hnew := sequencesOf_split (t := t) hcolumns
      have hname : ∀ columns, t.sequencesFor table columns =
          t.sequencesFor (table.withColumnReplaced column target) columns :=
        sequencesFor_congr ansi rfl
      rw [hname, hname] at hold
      -- The columns on either side have the same sequences as before.
      have hone := (List.perm_append_right_iff _).mp
        (hold.symm.trans (hperm.trans hnew))
      simp only [sequencesFor, List.filter_cons, hnumbered, htarget,
        if_true, List.filter_nil, List.map_cons, List.map_nil,
        List.perm_singleton, List.cons.injEq, and_true] at hone
      exact sequence_inj ansi hone
  | addTable table => trivial
  | removeTable name => trivial
  | addColumn name c => trivial
  | removeColumn name column => trivial
  | addIndex name i => trivial
  | removeIndex name index => trivial
  | renameIndex name source target => trivial
  | changePrimaryKey name columns => trivial
  | removeView name => trivial

/-- What an edit writes turns the sequences of the snapshot before it into
those of the snapshot after it when it leaves autonumbered columns under
their names and no two of them come to share a sequence, and not
otherwise. -/
theorem run_planChange_iff (ansi : t.dialect = .ansi) {s next : Snapshot}
    (wf : s.WellFormed) (apart : (s.sequences t).Nodup)
    {edit : SchemaEdit} {change : SchemaChange}
    (accepted : s.apply edit = .ok (change, next)) {ds : List Ddl}
    (written : t.planChange change = .ok ds) :
    LiveSequences.run (s.sequences t).toFinset (sequenceEvents ds) =
        some (next.sequences t).toFinset ↔
      edit.KeepsNumberedNames s ∧ (next.sequences t).Nodup := by
  rw [events_planChange ansi written]
  by_cases keeps : edit.KeepsNumberedNames s
  · obtain ⟨kept, hbefore, hafter⟩ :=
      moves_of_keeps ansi wf accepted keeps
    rw [LiveSequences.run_replace_iff hbefore hafter apart]
    exact ⟨fun h => ⟨keeps, h.1⟩, fun h => ⟨h.2, rfl⟩⟩
  · -- Nothing is written, while the names have changed.
    obtain ⟨hreleased, hclaimed⟩ :=
      released_claimed_of_not_keeps (t := t) accepted keeps
    rw [hreleased, hclaimed]
    refine iff_of_false (fun h => keeps ?_) fun h => keeps h.1
    exact keeps_of_toFinset_eq ansi apart accepted (Option.some.inj h)

end Target

/-! ### Edits in a row -/

/-- The edits are made one after the other. Each of them leaves
autonumbered columns under their names, and meets a snapshot in which no
two of them share a sequence. -/
def Snapshot.KeepSequences (s : Snapshot) (t : Target)
    (edits : List SchemaEdit) : Prop :=
  s.Along (fun met edit => (met.sequences t).Nodup ∧
    edit.KeepsNumberedNames met) edits

instance (s : Snapshot) (t : Target) (edits : List SchemaEdit) :
    Decidable (s.KeepSequences t edits) :=
  inferInstanceAs (Decidable (s.Along _ edits))

namespace Target

variable {t : Target}

/-- The sequences in the database go on being those of the snapshot while
edits are made. -/
theorem run_planEdits (ansi : t.dialect = .ansi) {s final : Snapshot}
    (wf : s.WellFormed) {edits : List SchemaEdit} {statements : List Ddl}
    (planned : t.planEdits s edits = .ok (statements, final))
    (kept : s.KeepSequences t edits) (apart : (final.sequences t).Nodup) :
    LiveSequences.run (s.sequences t).toFinset
        (sequenceEvents statements) =
      some (final.sequences t).toFinset := by
  induction edits generalizing s statements with
  | nil =>
      obtain ⟨rfl, rfl⟩ : [] = statements ∧ s = final := by
        simpa [planEdits] using planned
      rfl
  | cons edit rest ih =>
      obtain ⟨change, next, now, more, hedit, hchange, hrest, rfl⟩ :=
        planEdits_cons_eq_ok_iff.mp planned
      obtain ⟨⟨hapart, hkeeps⟩, hkept⟩ := kept
      have hkept := hkept change next hedit
      have hnext : (next.sequences t).Nodup := by
        cases rest with
        | nil =>
            obtain ⟨-, rfl⟩ : [] = more ∧ next = final := by
              simpa [planEdits] using hrest
            exact apart
        | cons edit' rest' => exact hkept.1.1
      have hnow := (run_planChange_iff ansi wf hapart hedit hchange).mpr
        ⟨hkeeps, hnext⟩
      rw [LiveSequences.run] at hnow
      rw [sequenceEvents_append, LiveSequences.run, List.foldlM_append, hnow]
      exact ih (wf.apply hedit) hrest hkept

end Target

/-! ### All calls of an upgrade -/

/-- The sequences in the database go on being those of the snapshot,
whatever is asked of the runner, as long as no autonumbered column is
taken to another name and no two of them share a sequence. No sequence
is created twice on the way, and none is dropped that is not there. -/
theorem Runner.sequences_follow {σ : Type} {r : Runner σ}
    (ansi : r.session.target.dialect = .ansi) (fresh : r.snapshot = {})
    (real : r.dryRun = false)
    (never : ∀ text state, (r.execute text state).1 = .ok ())
    (cs : List Call)
    (kept : Snapshot.KeepSequences {} r.session.target
      ((r.logged.takenIn cs).flatMap UpgradeStep.edits))
    (apart : ((r.logged.calls cs).snapshot.sequences
      r.session.target).Nodup) :
    ∃ statements,
      r.session.target.planEdits {}
          ((r.logged.takenIn cs).flatMap UpgradeStep.edits) =
        .ok (statements, (r.logged.calls cs).snapshot) ∧
      (r.logged.calls cs).state.2 = r.session.target.texts statements ∧
      LiveSequences.run ∅ (sequenceEvents statements) =
        some ((r.logged.calls cs).snapshot.sequences
          r.session.target).toFinset := by
  obtain ⟨statements, planned, handed⟩ := r.handed_calls real never cs
  rw [fresh] at planned
  exact ⟨statements, planned, handed,
    Target.run_planEdits ansi Snapshot.wellFormed_empty planned kept apart⟩

/-! ### An autonumbered column -/

/-- A number that a sequence gives. -/
def accountId : Column where
  name := "Id"
  type := .bigInteger
  autoNumbered := true

/-- A table with such a column. -/
def createAccount : UpgradeStep where
  id := "create-account"
  sequence := 1
  edits := [.addTable { name := "Account", columns := [accountId] }]

/-- The column gives way to one that is not autonumbered, and the table
is renamed then. -/
def settleAccount : UpgradeStep where
  id := "settle-account"
  sequence := 2
  edits :=
    [.addColumn "Account" { accountId with name := "Branch" },
     .changeColumn "Account" "Branch" { accountId with
       name := "Branch", autoNumbered := false },
     .removeColumn "Account" "Id",
     .renameTable "Account" "Customer",
     .addColumn "Customer" accountId]

/-- Renames the table with the column in it. -/
def renameAccount : UpgradeStep where
  id := "rename-account"
  sequence := 2
  edits := [.renameTable "Account" "Customer"]

/-- Drops the table under its new name. -/
def dropCustomer : UpgradeStep where
  id := "drop-customer"
  sequence := 3
  edits := [.removeTable "Customer"]

/-- Sequences are dropped before their table takes another name, and
created under that one. -/
theorem sequences_follow_settled :
    ∃ statements,
      ({ dialect := .ansi } : Target).texts statements =
        ((beginning Executor.willing ()).logged.calls
          [.apply .leapDay createAccount, .apply .leapDay createAccount,
           .apply .leapDay settleAccount]).state.2 ∧
      LiveSequences.run ∅ (sequenceEvents statements) =
        some {⟨"", "Customer_Id_SEQ"⟩} := by
  obtain ⟨statements, -, handed, hrun⟩ := Runner.sequences_follow
    (r := beginning Executor.willing ()) rfl rfl rfl (fun _ _ => rfl)
    [.apply .leapDay createAccount, .apply .leapDay createAccount,
     .apply .leapDay settleAccount]
    (by decide +kernel) (by decide +kernel)
  refine ⟨statements, handed.symm, hrun.trans ?_⟩
  decide +kernel

/-- A table that is renamed with an autonumbered column in it refers to a
sequence that was never created. When the table is dropped, that one is
dropped, and it is not there. -/
theorem account_sequence_lost :
    let t : Target := { dialect := .ansi }
    let r := (beginning Executor.willing ()).logged.calls
      [.apply .leapDay createAccount, .apply .leapDay renameAccount]
    let created := .created ⟨"", "Account_Id_SEQ"⟩
    r.history.applied.map AppliedStep.id =
        ["create-account", "rename-account"] ∧
      r.snapshot.sequences t = [⟨"", "Customer_Id_SEQ"⟩] ∧
      (t.planEdits {} (createAccount.edits ++ renameAccount.edits)).map
          (fun p => (t.texts p.1, sequenceEvents p.1)) =
        .ok (r.state.2, [created]) ∧
      LiveSequences.run ∅ [created] = some {⟨"", "Account_Id_SEQ"⟩} ∧
      (t.planEdits r.snapshot dropCustomer.edits).map
          (fun p => sequenceEvents p.1) =
        .ok [.dropped ⟨"", "Customer_Id_SEQ"⟩] ∧
      LiveSequences.run ∅
        [created, .dropped ⟨"", "Customer_Id_SEQ"⟩] = none := by
  refine ⟨?_, ?_, toOption_eq_some_iff.mp ?_, ?_,
    toOption_eq_some_iff.mp ?_, ?_⟩
  all_goals decide +kernel

end SchemaEvolution

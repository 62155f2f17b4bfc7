import SchemaEvolution.Proofs.Ddl.ColumnIndexes
import SchemaEvolution.Proofs.Schema.Validity

/-!
# `SchemaEvolution.Proofs.Ddl.IndexLifecycle`: one index of many

An index is looked up by its exact name, but a table gives up all indexes
whose names differ from a given one in case at most. The database gives up
only the index that a statement drops. The lemmas here follow both, and
show when they come to the same: when the table has no other index of that
name, case aside.

* `filter_eq_eraseP_iff`: passing over all matches is passing over the first
  one when there is no other.
* `Ddl.runIndexes`: the indexes of a table in the database.
* `Table.indexes_withoutIndex_iff`: when a table gives up one index only.
* `Target.run_removeIndex`, `run_renameIndex`: what the database gives up.
* `Target.index_edits_follow`: when the snapshot gives up the same.
* `resolveIndexRename_before`, `resolveIndexRename_after`: an index that is
  renamed is found on the table as it was and as it is afterwards.
* `Target.rename_from_either_side`: from both tables the renaming comes to
  the same statements.
-/

set_option autoImplicit false

namespace SchemaEvolution

open SchemaEvolution.Text

/-! ### One match and all matches -/

/-- Passing over all matches is passing over the first one, for which a
narrower search was made, when it is the only one. -/
theorem filter_eq_eraseP_iff {α : Type} {p q : α → Bool} {xs : List α}
    {x : α} (found : xs.find? q = some x) (hp : p x) :
    xs.filter (fun y => !p y) = xs.eraseP q ↔ xs.countP p = 1 := by
  obtain ⟨hx, before, after, rfl, hbefore⟩ :=
    exists_append_of_find?_eq_some found
  have herase : (before ++ x :: after).eraseP q = before ++ after := by
    rw [List.eraseP_append_right _ (by simpa using hbefore),
      List.eraseP_cons_of_pos hx]
  have hfilter : (before ++ x :: after).filter (fun y => !p y) =
      (before ++ after).filter fun y => !p y := by
    rw [List.filter_append, List.filter_append,
      List.filter_cons_of_neg (by simp [hp])]
  have hcount : (before ++ x :: after).countP p =
      (before ++ after).countP p + 1 := by
    rw [List.countP_append, List.countP_append, List.countP_cons_of_pos hp,
      Nat.add_assoc]
  rw [herase, hfilter, hcount, List.filter_eq_self, Nat.add_eq_right,
    List.countP_eq_zero]
  simp

/-! ### The indexes of a table in the database -/

namespace Ddl

/-- What a statement makes of the indexes of a table. A statement is refused
if it drops an index that is not there, and if it is about another table or
about anything else than an index. -/
def stepIndexes (table : ObjectName) (indexes : List Index) :
    Ddl → Option (List Index)
  | .createIndex place i =>
      if place = table then some (indexes ++ [i]) else none
  | .dropIndex place name =>
      if place = table ∧ ∃ i ∈ indexes, i.name = name then
        some (indexes.eraseP fun i => i.name == name)
      else none
  | .clearIndex place name =>
      if place = table then
        some (indexes.eraseP fun i => i.name == name)
      else none
  | _ => none

/-- What statements make of the indexes of a table, one after the other,
unless one of them is refused. -/
def runIndexes (table : ObjectName) (indexes : List Index)
    (statements : List Ddl) : Option (List Index) :=
  statements.foldlM (stepIndexes table) indexes

end Ddl

namespace Table

/-- The indexes of the table without the one that is found under a name. -/
def indexesBeside (t : Table) (name : String) : List Index :=
  t.indexes.eraseP fun i => i.name == name

/-- How many indexes of the table have this name, case aside. -/
def indexCount (t : Table) (name : String) : Nat :=
  t.indexes.countP fun i => SameName i.name name

variable {t : Table} {name : String} {i : Index}

theorem name_of_index? (found : t.index? name = some i) : i.name = name := by
  simpa using List.find?_some found

theorem mem_of_index? (found : t.index? name = some i) :
    ∃ j ∈ t.indexes, j.name = name :=
  ⟨i, List.mem_of_find?_eq_some found, name_of_index? found⟩

/-- An index that came in under a name that no other has exactly is found
under it. -/
theorem index?_withIndex (free : t.index? i.name = none) :
    (t.withIndex i).index? i.name = some i := by
  show List.find? _ (t.indexes ++ [i]) = _
  rw [List.find?_append, ← index?, free]
  simp

/-- A table that gives up indexes does not get others. -/
theorem index?_withoutIndex_of_none (free : t.index? name = none)
    (given : String) : (t.withoutIndex given).index? name = none := by
  rw [index?, List.find?_eq_none] at free ⊢
  exact fun j hj => free j (List.mem_of_mem_filter hj)

/-- A table gives up one index only when no other has the name, case
aside. -/
theorem indexes_withoutIndex_iff (found : t.index? name = some i) :
    (t.withoutIndex name).indexes = t.indexesBeside name ↔
      t.indexCount name = 1 := by
  refine filter_eq_eraseP_iff found ?_
  rw [name_of_index? found]
  exact decide_eq_true (SameName.refl name)

/-- A table that is given an index and loses it by its name is as it was
when it had no index of that name, case aside. -/
theorem withoutIndex_withIndex_iff :
    (t.withIndex i).withoutIndex i.name = t ↔ t.indexCount i.name = 0 := by
  have hindexes : ((t.withIndex i).withoutIndex i.name).indexes =
      t.indexes.filter fun j => !decide (SameName j.name i.name) := by
    simp [withIndex, withoutIndex, SameName.refl]
  have hrest : (t.withIndex i).withoutIndex i.name = t ↔
      ((t.withIndex i).withoutIndex i.name).indexes = t.indexes :=
    ⟨congrArg Table.indexes,
      congrArg fun is => { t with indexes := is }⟩
  rw [hrest, hindexes, List.filter_eq_self, indexCount, List.countP_eq_zero]
  simp

end Table

/-! ### The two sides of a renaming -/

section Sides

variable {before : Table} {source target : String} {i : Index}

/-- On the table as it was, the renamed index is found under its old name,
as the new one is free. -/
theorem resolveIndexRename_before (found : before.index? source = some i)
    (free : before.index? target = none) :
    resolveIndexRename before source target =
      .ok ⟨i, i.renamed target, .beforeRename⟩ := by
  rw [resolveIndexRename, free, found]

/-- On the table as it is afterwards, the renamed index is found under its
new name, and is given back the old one. -/
theorem resolveIndexRename_after (found : before.index? source = some i)
    (free : before.index? target = none) :
    resolveIndexRename
        ((before.withoutIndex source).withIndex (i.renamed target))
        source target =
      .ok ⟨i, i.renamed target, .afterRename⟩ := by
  have hfound : ((before.withoutIndex source).withIndex
      (i.renamed target)).index? target = some (i.renamed target) :=
    Table.index?_withIndex (i := i.renamed target)
      (Table.index?_withoutIndex_of_none free source)
  have hback : (i.renamed target).renamed source = i := by
    rw [← Table.name_of_index? found]
    rfl
  simp only [resolveIndexRename, hfound, hback]

end Sides

namespace Target

variable {t : Target}

/-- The database gives up the index that is found under a name. -/
theorem run_dropIndex (keeps : t.dialect.KeepsSubjects) {table : Table}
    {i : Index} {indexes : List Index}
    (there : ∃ j ∈ indexes, j.name = i.name) (rest : List Ddl) :
    Ddl.runIndexes (t.tableName table) indexes
        (t.dropIndex table i ++ rest) =
      Ddl.runIndexes (t.tableName table)
        (indexes.eraseP fun j => j.name == i.name) rest := by
  rw [dropIndex, keeps.dropIndex, Ddl.runIndexes, List.singleton_append,
    List.foldlM_cons]
  simp only [Ddl.stepIndexes, true_and, if_pos there]
  rfl

/-- What is written for the removal of an index. -/
theorem planChange_removeIndex {table : Table}
    (valid : table.validate = .ok ()) (i : Index) :
    t.planChange (.removeIndex table i) = .ok (t.dropIndex table i) := by
  have named := (Table.validate_eq_ok_iff.mp valid).1
  simp [planChange, checkTableName, named]

/-- The index that is removed is the one that the database gives up. -/
theorem run_removeIndex (keeps : t.dialect.KeepsSubjects)
    {before after : Table} {name : String} {i : Index}
    (hplace : t.tableName after = t.tableName before)
    (found : before.index? name = some i) :
    Ddl.runIndexes (t.tableName before) before.indexes
        (t.dropIndex after i) =
      some (before.indexesBeside name) := by
  have there := Table.mem_of_index? found
  rw [← Table.name_of_index? found] at there ⊢
  rw [← hplace, ← List.append_nil (t.dropIndex after i),
    run_dropIndex keeps there]
  rfl

/-- What is written for the renaming of an index: it is dropped under its
old name and created under the new one. -/
theorem planChange_renameIndex {before : Table} {source target : String}
    {i : Index} (found : before.index? source = some i)
    (free : before.index? target = none) :
    let after :=
      (before.withoutIndex source).withIndex (i.renamed target)
    t.planChange (.renameIndex after source target) =
      .ok (t.dropIndex after i ++ [t.createIndex after (i.renamed target)]) := by
  intro after
  rw [planChange, renameIndex, resolveIndexRename_after found free]
  rfl

/-- The index that is renamed is the one that the database gives up, and
gets back at the end under the new name. -/
theorem run_renameIndex (keeps : t.dialect.KeepsSubjects)
    {before after : Table} {source target : String} {i : Index}
    (hplace : t.tableName after = t.tableName before)
    (found : before.index? source = some i) :
    Ddl.runIndexes (t.tableName before) before.indexes
        (t.dropIndex after i ++ [t.createIndex after (i.renamed target)]) =
      some (before.indexesBeside source ++ [i.renamed target]) := by
  have there := Table.mem_of_index? found
  rw [← Table.name_of_index? found] at there ⊢
  rw [← hplace, run_dropIndex keeps there]
  simp [Ddl.runIndexes, Ddl.stepIndexes, createIndex, Table.indexesBeside]

/-- An index of a snapshot's table is removed: the database gives up that
one, and the snapshot does the same when no other has the name, case
aside. -/
theorem removeIndex_follows (keeps : t.dialect.KeepsKeys)
    (keeps' : t.dialect.KeepsSubjects) {s next : Snapshot}
    {name index : String} {before : Table}
    (found : s.table? name = some before) {change : SchemaChange}
    (accepted : s.apply (.removeIndex name index) = .ok (change, next)) :
    ∃ removed after statements,
      before.index? index = some removed ∧
      change = .removeIndex after removed ∧
      next = s.withTable name after ∧
      after = { before with indexes := after.indexes } ∧
      t.planChange change = .ok statements ∧
      Ddl.runIndexes (t.tableName before) before.indexes statements =
        some (before.indexesBeside index) ∧
      (after.indexes = before.indexesBeside index ↔
        before.indexCount index = 1) := by
  obtain ⟨before', found', removed, hindex, valid, rfl, rfl⟩ :=
    Snapshot.apply_removeIndex.mp accepted
  obtain rfl := Option.some.inj (found.symm.trans found')
  have hplace : t.tableName (before.withoutIndex index) =
      t.tableName before := tableName_eq keeps rfl rfl
  exact ⟨removed, before.withoutIndex index, _, hindex, rfl, rfl, rfl,
    planChange_removeIndex valid removed,
    run_removeIndex keeps' hplace hindex,
    Table.indexes_withoutIndex_iff hindex⟩

/-- An index of a snapshot's table is renamed: the database gives up that
one and has it under its new name instead, and the snapshot does the same
when no other has the old name, case aside. -/
theorem renameIndex_follows (keeps : t.dialect.KeepsKeys)
    (keeps' : t.dialect.KeepsSubjects) {s next : Snapshot}
    {name source target : String} {before : Table}
    (found : s.table? name = some before) {change : SchemaChange}
    (accepted : s.apply (.renameIndex name source target) =
      .ok (change, next)) :
    ∃ existing after statements,
      before.index? source = some existing ∧
      change = .renameIndex after source target ∧
      next = s.withTable name after ∧
      after = { before with indexes := after.indexes } ∧
      t.planChange change = .ok statements ∧
      Ddl.runIndexes (t.tableName before) before.indexes statements =
        some (before.indexesBeside source ++ [existing.renamed target]) ∧
      (after.indexes =
          before.indexesBeside source ++ [existing.renamed target] ↔
        before.indexCount source = 1) := by
  obtain ⟨before', found', existing, hindex, hfree, -, rfl, rfl⟩ :=
    Snapshot.apply_renameIndex.mp accepted
  obtain rfl := Option.some.inj (found.symm.trans found')
  have hplace : t.tableName ((before.withoutIndex source).withIndex
      (existing.renamed target)) = t.tableName before :=
    tableName_eq keeps rfl rfl
  refine ⟨existing, _, _, hindex, rfl, rfl, rfl,
    planChange_renameIndex hindex hfree, run_renameIndex keeps' hplace hindex, ?_⟩
  -- The renamed index stands last on both sides.
  exact List.append_left_inj _ |>.trans
    (Table.indexes_withoutIndex_iff hindex)

/-- An index that was added can be removed by its name, which gives the
snapshot back when its table had no index of that name, case aside. -/
theorem removeIndex_undoes_addIndex_iff {s next : Snapshot}
    (wf : s.WellFormed) {name : String} {i : Index} {before : Table}
    (found : s.table? name = some before) {change : SchemaChange}
    (accepted : s.apply (.addIndex name i) = .ok (change, next)) :
    ∃ change' last,
      next.apply (.removeIndex name i.name) = .ok (change', last) ∧
      (last = s ↔ before.indexCount i.name = 0) := by
  obtain ⟨before', found', hfree, valid, rfl, rfl⟩ :=
    Snapshot.apply_addIndex.mp accepted
  obtain rfl := Option.some.inj (found.symm.trans found')
  have hname : SameName (before.withIndex i).name name :=
    (Snapshot.tables_eq_append_of_table? found).1
  have found_after : (s.withTable name (before.withIndex i)).table? name =
      some (before.withIndex i) := wf.table?_withTable_of_name_eq found rfl
  -- The name finds the index that was added, since it found none before.
  have hindex := Table.index?_withIndex hfree
  have hlast : (s.withTable name (before.withIndex i)).withTable name
      ((before.withIndex i).withoutIndex i.name) = s.withTable name
        ((before.withIndex i).withoutIndex i.name) :=
    Snapshot.withTable_withTable found hname _
  -- So it is the one that goes, along with all others of its name up to
  -- case.
  refine ⟨_, _, Snapshot.apply_removeIndex.mpr
    ⟨before.withIndex i, found_after, i, hindex,
      Table.validate_withoutIndex valid i.name, rfl, rfl⟩, ?_⟩
  rw [hlast, ← Table.withoutIndex_withIndex_iff]
  exact wf.withTable_eq_self_iff found rfl

/-- The removal and the renaming of an index concern that index alone, as
long as its table has no other of that name, case aside. What is written
for them takes the index from the database, and puts it back under its new
name if it is renamed, and every other index stays there as it is and
where it is. The snapshot does the same on that condition, and only then.
So the addition of an index is undone by its removal when the table had
none of that name, case aside, and only then. -/
theorem index_edits_follow {t : Target}
    (dialect : t.dialect = .ansi ∨ t.dialect = .nuoDb)
    {s : Snapshot} (wf : s.WellFormed) {name : String} {before : Table}
    (found : s.table? name = some before) :
    (∀ (index : String) (change : SchemaChange) (next : Snapshot),
      s.apply (.removeIndex name index) = .ok (change, next) →
      ∃ removed after statements,
        before.index? index = some removed ∧
        change = .removeIndex after removed ∧
        next = s.withTable name after ∧
        after = { before with indexes := after.indexes } ∧
        t.planChange change = .ok statements ∧
        Ddl.runIndexes (t.tableName before) before.indexes statements =
          some (before.indexesBeside index) ∧
        (after.indexes = before.indexesBeside index ↔
          before.indexCount index = 1)) ∧
    (∀ (source target : String) (change : SchemaChange) (next : Snapshot),
      s.apply (.renameIndex name source target) = .ok (change, next) →
      ∃ existing after statements,
        before.index? source = some existing ∧
        change = .renameIndex after source target ∧
        next = s.withTable name after ∧
        after = { before with indexes := after.indexes } ∧
        t.planChange change = .ok statements ∧
        Ddl.runIndexes (t.tableName before) before.indexes statements =
          some (before.indexesBeside source ++
            [existing.renamed target]) ∧
        (after.indexes =
            before.indexesBeside source ++ [existing.renamed target] ↔
          before.indexCount source = 1)) ∧
    ∀ (i : Index) (change : SchemaChange) (next : Snapshot),
      s.apply (.addIndex name i) = .ok (change, next) →
      ∃ change' last,
        next.apply (.removeIndex name i.name) = .ok (change', last) ∧
        (last = s ↔ before.indexCount i.name = 0) := by
  have keeps := Dialect.keeps_of_eq dialect
  -- One part for each kind of edit, over the step that the edit takes.
  refine ⟨fun index change next accepted => ?_,
    fun source target change next accepted => ?_,
    fun i change next accepted => ?_⟩
  · exact removeIndex_follows keeps.1 keeps.2 found accepted
  · exact renameIndex_follows keeps.1 keeps.2 found accepted
  · exact removeIndex_undoes_addIndex_iff wf found accepted

end Target

/-- The second index of the exchange rates is removed, or renamed, and a
fourth one is added and removed. The others stay. -/
theorem index_edits_follow_exchangeRate :
    let place : ObjectName := ⟨"", "Rate"⟩
    let first : Index := ⟨"Rate_I1", ["CODE", "Day"], true⟩
    let third : Index := ⟨"Rate_I3", ["Day", "Code"], false⟩
    let byDay : Index := ⟨"Rate_Day", ["Day"], false⟩
    let byValue : Index := ⟨"Rate_I4", ["Value"], false⟩
    (exchangeRate.withoutIndex "Rate_I2").indexes = [first, third] ∧
      Ddl.runIndexes place exchangeRate.indexes
        [.dropIndex place "Rate_I2"] = some [first, third] ∧
      Ddl.runIndexes place exchangeRate.indexes
          [.dropIndex place "Rate_I2", .createIndex place byDay] =
        some [first, third, byDay] ∧
      ∃ change, (exchangeRates.withTable "rate"
          (exchangeRate.withIndex byValue)).apply
            (.removeIndex "rate" "Rate_I4") = .ok (change, exchangeRates) := by
  intro place first third byDay byValue
  have wf : exchangeRates.WellFormed := Snapshot.validate_eq_ok_iff.mp
    (toOption_eq_some_iff.mp (by decide +kernel))
  have found : exchangeRates.table? "rate" = some exchangeRate := rfl
  -- One table serves all three parts.
  obtain ⟨hremove, hrename, hadd⟩ := Target.index_edits_follow
    (t := { dialect := .nuoDb }) (.inr rfl) wf found
  obtain ⟨removed, after, statements, -, hchange, -, -, hwritten, hrun,
      hexact⟩ := hremove "Rate_I2" _ _ (Snapshot.apply_removeIndex.mpr
        ⟨_, rfl, _, rfl, toOption_eq_some_iff.mp (by decide +kernel), rfl,
          rfl⟩)
  obtain ⟨existing, after', statements', hexisting, hchange', -, -,
      hwritten', hrun', -⟩ := hrename "Rate_I2" "Rate_Day" _ _
        (Snapshot.apply_renameIndex.mpr ⟨_, rfl, _, rfl, rfl,
          toOption_eq_some_iff.mp (by decide +kernel), rfl, rfl⟩)
  obtain ⟨change, last, hundo, hback⟩ := hadd byValue _ _
    (Snapshot.apply_addIndex.mpr ⟨_, rfl, rfl,
      toOption_eq_some_iff.mp (by decide +kernel), rfl, rfl⟩)
  obtain ⟨rfl, -⟩ := SchemaChange.removeIndex.inj hchange
  obtain rfl := Option.some.inj hexisting
  obtain rfl := hback.mpr (by decide +kernel)
  have htaken : statements = [.dropIndex place "Rate_I2"] :=
    Except.ok.inj (hwritten.symm.trans
      (toOption_eq_some_iff.mp (by decide +kernel)))
  have hput : statements' =
      [.dropIndex place "Rate_I2", .createIndex place byDay] :=
    Except.ok.inj (hwritten'.symm.trans
      (toOption_eq_some_iff.mp (by decide +kernel)))
  refine ⟨hexact.mpr (by decide +kernel), ?_, ?_, change, hundo⟩
  · rw [← htaken]
    exact hrun
  · rw [← hput]
    exact hrun'

/-- A table with two indexes whose names differ in case. -/
def dailyRate : Table where
  name := "Rate"
  columns :=
    [{ name := "Code", type := .string, width := 3 },
     { name := "Day", type := .date }]
  indexes :=
    [⟨"Rate_Day", ["Day"], false⟩, ⟨"RATE_DAY", ["Day", "Code"], true⟩]

/-- Once one of two indexes whose names differ in case has been removed, or
renamed, the snapshot has lost the other one as well, which was not dropped
and is still there in the database. -/
theorem dailyRate_index_lost :
    let s : Snapshot := { tables := [dailyRate] }
    let t : Target := { dialect := .ansi }
    let place : ObjectName := ⟨"", "Rate"⟩
    let other : Index := ⟨"RATE_DAY", ["Day", "Code"], true⟩
    let renamed : Index := ⟨"Rate_Old", ["Day"], false⟩
    s.validate.toOption = some () ∧
      (s.apply (.removeIndex "Rate" "Rate_Day")).toOption.map (fun p =>
          (p.2.tables.map Table.indexes, (t.planChange p.1).toOption)) =
        some ([[]], some [.dropIndex place "Rate_Day"]) ∧
      Ddl.runIndexes place dailyRate.indexes
        [.dropIndex place "Rate_Day"] = some [other] ∧
      (s.apply (.renameIndex "Rate" "Rate_Day" "Rate_Old")).toOption.map
          (fun p =>
            (p.2.tables.map Table.indexes, (t.planChange p.1).toOption)) =
        some ([[renamed]], some [.dropIndex place "Rate_Day",
          .createIndex place renamed]) ∧
      Ddl.runIndexes place dailyRate.indexes
          [.dropIndex place "Rate_Day", .createIndex place renamed] =
        some [other, renamed] := by
  decide +kernel

namespace Target

/-- The renaming of an index comes to the same statements from the table as
it was, which has the index under its old name, and from the table as a
snapshot has it afterwards, whatever other indexes there are. The index is
dropped under its old name and created under the new one, on the same
columns in the same order, and unique if it was. In the database it gives up
its place for the last one, and the others stay. What is written for an edit
of a snapshot that has the table is this. -/
theorem rename_from_either_side {t : Target}
    (dialect : t.dialect = .ansi ∨ t.dialect = .nuoDb) {before : Table}
    {source target : String} {i : Index}
    (found : before.index? source = some i)
    (free : before.index? target = none) :
    let after := (before.withoutIndex source).withIndex (i.renamed target)
    let place := t.tableName before
    let statements : List Ddl :=
      [.dropIndex place source,
       .createIndex place ⟨target, i.columns, i.unique⟩]
    t.renameIndex after source target = t.renameIndex before source target ∧
      t.renameIndex before source target = .ok statements ∧
      Ddl.runIndexes place before.indexes statements =
        some (before.indexesBeside source ++ [i.renamed target]) ∧
      ∀ (s next : Snapshot) (name : String) (change : SchemaChange),
        s.table? name = some before →
        s.apply (.renameIndex name source target) = .ok (change, next) →
        change = .renameIndex after source target ∧
          t.planChange change = .ok statements := by
  intro after place statements
  have keeps := Dialect.keeps_of_eq dialect
  have hplace : t.tableName after = place := tableName_eq keeps.1 rfl rfl
  -- Both tables give the same pair of indexes, and stand in one place.
  have hstatements : ∀ table : Table, t.tableName table = place →
      t.dropIndex table i ++ [t.createIndex table (i.renamed target)] =
        statements := by
    intro table htable
    rw [dropIndex, keeps.2.dropIndex, createIndex, htable,
      Table.name_of_index? found]
    rfl
  have hbefore : t.renameIndex before source target = .ok statements := by
    rw [← hstatements before rfl, renameIndex,
      resolveIndexRename_before found free]
    rfl
  have hafter : t.renameIndex after source target = .ok statements := by
    rw [← hstatements after hplace]
    exact planChange_renameIndex found free
  refine ⟨hafter.trans hbefore.symm, hbefore, ?_,
    fun s next name change htable accepted => ?_⟩
  · rw [← hstatements after hplace]
    exact run_renameIndex keeps.2 hplace found
  · obtain ⟨before', htable', existing, hindex, -, -, rfl, -⟩ :=
      Snapshot.apply_renameIndex.mp accepted
    obtain rfl := Option.some.inj (htable.symm.trans htable')
    obtain rfl := Option.some.inj (found.symm.trans hindex)
    exact ⟨rfl, hafter⟩

end Target

/-- One of two indexes whose names differ in case is given a third spelling
of that name, from the table that has both of them and from the table that
has the renamed one alone. -/
theorem dailyRate_renamed_from_either_side :
    let t : Target := { dialect := .nuoDb }
    let place : ObjectName := ⟨"", "Rate"⟩
    let after : Table :=
      { dailyRate with indexes := [⟨"rate_day", ["Day", "Code"], true⟩] }
    t.renameIndex after "RATE_DAY" "rate_day" =
        t.renameIndex dailyRate "RATE_DAY" "rate_day" ∧
      t.renameIndex dailyRate "RATE_DAY" "rate_day" =
        .ok [.dropIndex place "RATE_DAY",
          .createIndex place ⟨"rate_day", ["Day", "Code"], true⟩] ∧
      ∃ change, ({ tables := [dailyRate] } : Snapshot).apply
          (.renameIndex "Rate" "RATE_DAY" "rate_day") =
            .ok (change, { tables := [after] }) ∧
        t.planChange change = t.renameIndex after "RATE_DAY" "rate_day" := by
  intro t place after
  have found : dailyRate.index? "RATE_DAY" =
      some ⟨"RATE_DAY", ["Day", "Code"], true⟩ := rfl
  have free : dailyRate.index? "rate_day" = none := rfl
  obtain ⟨hsame, hwritten, -, hedit⟩ :=
    Target.rename_from_either_side (t := t) (.inr rfl) found free
  have accepted : ({ tables := [dailyRate] } : Snapshot).apply
      (.renameIndex "Rate" "RATE_DAY" "rate_day") =
        .ok (.renameIndex after "RATE_DAY" "rate_day",
          { tables := [after] }) :=
    Snapshot.apply_renameIndex.mpr
      ⟨dailyRate, rfl, _, found, free,
        toOption_eq_some_iff.mp (by decide +kernel), rfl, rfl⟩
  have hplan := (hedit _ _ _ _ rfl accepted).2
  exact ⟨hsame, hwritten, _, accepted,
    hplan.trans (hsame.trans hwritten).symm⟩

end SchemaEvolution

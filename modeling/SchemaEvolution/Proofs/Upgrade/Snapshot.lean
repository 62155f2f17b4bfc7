import Mathlib.Logic.Basic
import SchemaEvolution.Proofs.Schema.Table
import SchemaEvolution.Proofs.Support.Outcome
import SchemaEvolution.Upgrade.Format

/-!
# `SchemaEvolution.Proofs.Upgrade.Snapshot`: what an edit does to a snapshot

Each kind of edit has one lemma that says when it is accepted, which
change it amounts to and which snapshot it leaves. Later proofs cite
these lemmas and never unfold `Snapshot.apply`.

* `Snapshot.WellFormed`: every table is valid and no two tables share a
  name, case aside.
* `Snapshot.validate_eq_ok_iff`: the check of a snapshot that was read
  asks exactly that.
* `Snapshot.apply_addColumn` and its siblings: the edits, one by one.
* `Snapshot.WellFormed.apply`: no edit breaks a well-formed snapshot.
* `Snapshot.WellFormed.replay`: neither does a list of edits.
-/

set_option autoImplicit false

namespace SchemaEvolution

open SchemaEvolution.Text

namespace Snapshot

/-- Every table is valid, and no two tables share a name, case
aside. -/
structure WellFormed (s : Snapshot) : Prop where
  valid : ∀ t ∈ s.tables, t.validate = .ok ()
  distinct : DistinctNames Table.name s.tables

/-- The snapshot with `after` in the place of the table called
`name`. -/
def withTable (s : Snapshot) (name : String) (after : Table) :
    Snapshot :=
  { s with
    tables := replaceFirst (fun t => SameName t.name name) after s.tables }

/-! ### The steps of an edit -/

/-- Looking for a table succeeds with the table that is found. -/
theorem findTable_eq_ok_iff {s : Snapshot} {name : String} {t : Table} :
    s.findTable name = .ok t ↔ s.table? name = some t := by
  unfold findTable
  split <;> simp_all

/-- So does looking for a column. -/
theorem findColumn_eq_ok_iff {t : Table} {name : String} {c : Column} :
    findColumn t name = .ok c ↔ t.column? name = some c := by
  unfold findColumn
  split <;> simp_all

/-- So does looking for an index. -/
theorem findIndex_eq_ok_iff {t : Table} {name : String} {i : Index} :
    findIndex t name = .ok i ↔ t.index? name = some i := by
  unfold findIndex
  split <;> simp_all

/-- A check passes exactly if the table is valid, as its error is only
reworded. -/
theorem checkTable_eq_ok_iff {t : Table} {u : Unit} :
    checkTable t = .ok u ↔ t.validate = .ok () := by
  unfold checkTable
  split <;> simp_all

/-- A table is exchanged for a valid one. -/
theorem replaceTable_eq_ok {s next : Snapshot} {name : String}
    {after : Table} :
    s.replaceTable name after = .ok next ↔
      after.validate = .ok () ∧ next = s.withTable name after := by
  simp only [replaceTable, bind_eq_ok_iff, checkTable_eq_ok_iff]
  simp [withTable, eq_comm]

/-- How most edits end: the table is exchanged, and the edit gives its
change. -/
theorem exists_replaceTable_iff {s next : Snapshot} {name : String}
    {after : Table} {change change' : SchemaChange} :
    (∃ next', s.replaceTable name after = .ok next' ∧
        (pure (change', next') : Except UpgradeError _) =
          .ok (change, next)) ↔
      after.validate = .ok () ∧ change = change' ∧
        next = s.withTable name after := by
  simp only [replaceTable_eq_ok, pure_eq_ok, Except.ok.injEq,
    Prod.mk.injEq]
  constructor
  · rintro ⟨_, ⟨hvalid, rfl⟩, rfl, rfl⟩
    exact ⟨hvalid, rfl, rfl⟩
  · rintro ⟨hvalid, rfl, rfl⟩
    exact ⟨_, ⟨hvalid, rfl⟩, rfl, rfl⟩

/-! ### The edits, one by one -/

section Edits

variable {s next : Snapshot} {change : SchemaChange}

/-- A table is added when it is valid and its name is free. -/
theorem apply_addTable {t : Table} :
    s.apply (.addTable t) = .ok (change, next) ↔
      s.table? t.name = none ∧ t.validate = .ok () ∧
        change = .addTable t ∧
        next = { s with tables := s.tables ++ [t] } := by
  simp only [apply, guard_eq_ok_iff, Option.not_isSome_iff_eq_none,
    bind_eq_ok_iff, checkTable_eq_ok_iff]
  simp [eq_comm]

/-- A table is removed when there is one. -/
theorem apply_removeTable {name : String} :
    s.apply (.removeTable name) = .ok (change, next) ↔
      ∃ before, s.table? name = some before ∧
        change = .removeTable before ∧
        next = { s with
          tables := s.tables.eraseP fun t => SameName t.name name } := by
  simp only [apply, bind_eq_ok_iff, findTable_eq_ok_iff]
  simp [eq_comm]

/-- A table is renamed when its new name is its own or free, and not
blank. -/
theorem apply_renameTable {source target : String} :
    s.apply (.renameTable source target) = .ok (change, next) ↔
      ∃ before, s.table? source = some before ∧
        (SameName source target ∨ s.table? target = none) ∧
        ({ before with name := target } : Table).validate = .ok () ∧
        change = .renameTable before { before with name := target } ∧
        next = s.withTable source { before with name := target } := by
  simp only [apply, bind_eq_ok_iff, findTable_eq_ok_iff, guard_eq_ok_iff,
    not_and_or, not_not, Option.not_isSome_iff_eq_none,
    exists_replaceTable_iff]

/-- A column is added when the table has none of that name. -/
theorem apply_addColumn {name : String} {c : Column} :
    s.apply (.addColumn name c) = .ok (change, next) ↔
      ∃ before, s.table? name = some before ∧
        before.column? c.name = none ∧
        (before.withColumn c).validate = .ok () ∧
        change = .addColumn (before.withColumn c) c ∧
        next = s.withTable name (before.withColumn c) := by
  simp only [apply, bind_eq_ok_iff, findTable_eq_ok_iff, guard_eq_ok_iff,
    Option.not_isSome_iff_eq_none, exists_replaceTable_iff]

/-- A column is changed when the table has it and its new name is its
own or free. -/
theorem apply_changeColumn {name column : String} {target : Column} :
    s.apply (.changeColumn name column target) = .ok (change, next) ↔
      ∃ before, s.table? name = some before ∧
        ∃ source, before.column? column = some source ∧
          (target.IsNamed column ∨ before.column? target.name = none) ∧
          (before.withColumnReplaced column target).validate = .ok () ∧
          change = .changeColumn (before.withColumnReplaced column target)
            source target ∧
          next = s.withTable name
            (before.withColumnReplaced column target) := by
  simp only [apply, bind_eq_ok_iff, findTable_eq_ok_iff,
    findColumn_eq_ok_iff, guard_eq_ok_iff, not_and_or, not_not,
    Option.not_isSome_iff_eq_none, exists_replaceTable_iff]

/-- A column is removed when the table has it and is valid without
it. -/
theorem apply_removeColumn {name column : String} :
    s.apply (.removeColumn name column) = .ok (change, next) ↔
      ∃ before, s.table? name = some before ∧
        ∃ removed, before.column? column = some removed ∧
          (before.withoutColumn column).validate = .ok () ∧
          change = .removeColumn (before.withoutColumn column) removed ∧
          next = s.withTable name (before.withoutColumn column) := by
  simp only [apply, bind_eq_ok_iff, findTable_eq_ok_iff,
    findColumn_eq_ok_iff, exists_replaceTable_iff]

/-- An index is added when the table has none of exactly that name and
is valid with it. -/
theorem apply_addIndex {name : String} {i : Index} :
    s.apply (.addIndex name i) = .ok (change, next) ↔
      ∃ before, s.table? name = some before ∧
        before.index? i.name = none ∧
        (before.withIndex i).validate = .ok () ∧
        change = .addIndex (before.withIndex i) i ∧
        next = s.withTable name (before.withIndex i) := by
  simp only [apply, bind_eq_ok_iff, findTable_eq_ok_iff, guard_eq_ok_iff,
    Option.not_isSome_iff_eq_none, exists_replaceTable_iff]

/-- An index is removed when the table has one of exactly that
name. -/
theorem apply_removeIndex {name index : String} :
    s.apply (.removeIndex name index) = .ok (change, next) ↔
      ∃ before, s.table? name = some before ∧
        ∃ removed, before.index? index = some removed ∧
          (before.withoutIndex index).validate = .ok () ∧
          change = .removeIndex (before.withoutIndex index) removed ∧
          next = s.withTable name (before.withoutIndex index) := by
  simp only [apply, bind_eq_ok_iff, findTable_eq_ok_iff,
    findIndex_eq_ok_iff, exists_replaceTable_iff]

/-- An index is renamed when the table has one of exactly the old name
and none of exactly the new one. -/
theorem apply_renameIndex {name source target : String} :
    s.apply (.renameIndex name source target) = .ok (change, next) ↔
      ∃ before, s.table? name = some before ∧
        ∃ existing, before.index? source = some existing ∧
          before.index? target = none ∧
          ((before.withoutIndex source).withIndex
            (existing.renamed target)).validate = .ok () ∧
          change = .renameIndex ((before.withoutIndex source).withIndex
            (existing.renamed target)) source target ∧
          next = s.withTable name ((before.withoutIndex source).withIndex
            (existing.renamed target)) := by
  simp only [apply, bind_eq_ok_iff, findTable_eq_ok_iff,
    findIndex_eq_ok_iff, guard_eq_ok_iff, Option.not_isSome_iff_eq_none,
    exists_replaceTable_iff]

/-- A primary key is changed when the table has all of the named
columns. -/
theorem apply_changePrimaryKey {name : String} {columns : List String} :
    s.apply (.changePrimaryKey name columns) = .ok (change, next) ↔
      ∃ before, s.table? name = some before ∧
        (∀ n ∈ columns, (before.column? n).isSome) ∧
        (before.withPrimaryKey columns).validate = .ok () ∧
        change = .changePrimaryKey (before.withPrimaryKey columns)
          before.primaryKey (before.withPrimaryKey columns).primaryKey ∧
        next = s.withTable name (before.withPrimaryKey columns) := by
  simp only [apply, bind_eq_ok_iff, findTable_eq_ok_iff]
  -- The check looks for the first name that the table lacks.
  refine exists_congr fun before => and_congr_right fun _ => ?_
  split
  · rename_i missing hmissing
    have hin : missing ∈ columns := List.mem_of_find?_eq_some hmissing
    have hnone : before.column? missing = none := by
      simpa using List.find?_some hmissing
    refine iff_of_false (by simp) fun h => ?_
    simpa [hnone] using h.1 missing hin
  · rename_i hmissing
    have hall : ∀ n ∈ columns, (before.column? n).isSome := fun n hn => by
      simpa [Option.isSome_iff_ne_none] using
        List.find?_eq_none.mp hmissing n hn
    rw [and_iff_right hall, bind_eq_ok_iff]
    exact exists_replaceTable_iff

/-- A view is removed when there is one. -/
theorem apply_removeView {name : String} :
    s.apply (.removeView name) = .ok (change, next) ↔
      ∃ view, s.view? name = some view ∧
        change = .removeView ⟨view, none⟩ ∧
        next = { s with
          views := s.views.eraseP fun v => SameName v name } := by
  cases hview : s.view? name with
  | none => simp [apply, hview]
  | some view => simp [apply, hview, eq_comm]

end Edits

/-! ### The place of a table -/

/-- A table is not found when no table has the name. -/
theorem table?_eq_none_iff {s : Snapshot} {name : String} :
    s.table? name = none ↔ ∀ t ∈ s.tables, ¬ SameName t.name name := by
  simp [table?]

/-- A table is found under every spelling of its name. -/
theorem table?_congr {s : Snapshot} {name name' : String}
    (h : SameName name name') : s.table? name = s.table? name' := by
  unfold table?
  congr 1
  funext t
  exact decide_eq_decide.mpr ⟨fun ht => ht.trans h, fun ht => ht.trans h.symm⟩

/-- A table that is found splits the tables, and exchanging it exchanges
the middle of the split. -/
theorem tables_eq_append_of_table? {s : Snapshot} {name : String}
    {t : Table} (h : s.table? name = some t) :
    SameName t.name name ∧ ∃ before after,
      s.tables = before ++ t :: after ∧
        (∀ u ∈ before, ¬ SameName u.name name) ∧
        ∀ new, (s.withTable name new).tables =
          before ++ new :: after := by
  obtain ⟨ht, before, after, hsplit, hbefore⟩ :=
    exists_append_of_find?_eq_some h
  refine ⟨by simpa using ht, before, after, hsplit,
    fun u hu => by simpa using hbefore u hu, fun new => ?_⟩
  rw [withTable, hsplit]
  exact replaceFirst_eq_append new hbefore ht

/-- A table that is removed leaves the two sides of such a split. -/
theorem eraseP_tables {s : Snapshot} {name : String} {t : Table}
    {before after : List Table} (hsplit : s.tables = before ++ t :: after)
    (hbefore : ∀ u ∈ before, ¬ SameName u.name name)
    (ht : SameName t.name name) :
    (s.tables.eraseP fun u => SameName u.name name) = before ++ after := by
  rw [hsplit, List.eraseP_append_right _ (by simpa using hbefore),
    List.eraseP_cons_of_pos (by simpa using ht)]

namespace WellFormed

variable {s : Snapshot}

/-- A table that is found is valid. -/
theorem validate_of_table? (h : s.WellFormed) {name : String} {t : Table}
    (found : s.table? name = some t) : t.validate = .ok () :=
  h.valid t (List.mem_of_find?_eq_some found)

/-- The columns of a table that is found differ in their names by more
than case. -/
theorem distinctNames_of_table? (h : s.WellFormed) {name : String}
    {t : Table} (found : s.table? name = some t) :
    DistinctNames Column.name t.columns :=
  Table.distinctNames_of_validate (h.validate_of_table? found)

/-- The other tables have other names than one that keeps the name of
the table it stands for, or takes a name that is free. -/
theorem not_sameName_of_split (h : s.WellFormed) {name : String}
    {t : Table} {before after : List Table}
    (hsplit : s.tables = before ++ t :: after) (ht : SameName t.name name)
    {new : String} (hnew : SameName new name ∨ s.table? new = none)
    {u : Table} (hu : u ∈ before ∨ u ∈ after) :
    ¬ SameName u.name new := by
  -- A name that is kept was apart from the others before. A name that is
  -- free is nobody's.
  rcases hnew with hsame | hfree
  · have hdistinct := h.distinct
    rw [hsplit] at hdistinct
    exact fun hun =>
      hdistinct.not_sameName hu (hun.trans (hsame.trans ht.symm))
  · have hmem : u ∈ s.tables := by
      rw [hsplit]
      rcases hu with hu | hu
      · exact List.mem_append_left _ hu
      · exact List.mem_append_right _ (List.mem_cons_of_mem t hu)
    exact table?_eq_none_iff.mp hfree u hmem

/-- A table may be exchanged for a valid one that keeps its name or takes
a name that is free. -/
theorem withTable (h : s.WellFormed) {name : String} {t new : Table}
    (found : s.table? name = some t) (valid : new.validate = .ok ())
    (hname : SameName new.name name ∨ s.table? new.name = none) :
    (s.withTable name new).WellFormed := by
  obtain ⟨ht, before, after, hsplit, -, hnew⟩ :=
    tables_eq_append_of_table? found
  constructor
  · intro u hu
    rw [hnew, List.mem_append, List.mem_cons] at hu
    have hold : u ∈ before ∨ u ∈ after → u.validate = .ok () := fun hu =>
      h.valid u (by rw [hsplit]; rcases hu with hu | hu <;> simp [hu])
    rcases hu with hu | rfl | hu
    · exact hold (.inl hu)
    · exact valid
    · exact hold (.inr hu)
  · rw [hnew]
    have hdistinct := h.distinct
    rw [hsplit] at hdistinct
    exact hdistinct.exchange new fun u hu =>
      h.not_sameName_of_split hsplit ht hname hu

/-- A table that was exchanged is found under its new name. -/
theorem table?_withTable (h : s.WellFormed) {name : String}
    {t new : Table} (found : s.table? name = some t)
    (hname : SameName new.name name ∨ s.table? new.name = none) :
    (s.withTable name new).table? new.name = some new := by
  obtain ⟨ht, before, after, hsplit, -, hnew⟩ :=
    tables_eq_append_of_table? found
  -- The tables before it have other names, so that it is found first.
  refine List.find?_eq_some_iff_append.mpr
    ⟨by simpa using SameName.refl new.name, before, after, hnew new, ?_⟩
  intro u hu
  simpa using h.not_sameName_of_split hsplit ht hname (.inl hu)

/-- A table that was exchanged for one of its own name is found as it was
before. -/
theorem table?_withTable_of_name_eq (h : s.WellFormed) {name : String}
    {t new : Table} (found : s.table? name = some t)
    (hname : new.name = t.name) :
    (s.withTable name new).table? name = some new := by
  have hsame : SameName new.name name := by
    rw [hname]
    exact (tables_eq_append_of_table? found).1
  rw [← table?_congr hsame]
  exact h.table?_withTable found (.inl hsame)

end WellFormed

/-- A table that is found may stand where it was found. -/
theorem withTable_self {s : Snapshot} {name : String} {t : Table}
    (found : s.table? name = some t) : s.withTable name t = s := by
  obtain ⟨-, before, after, hsplit, -, hnew⟩ :=
    tables_eq_append_of_table? found
  exact congrArg (Snapshot.mk · s.views) ((hnew t).trans hsplit.symm)

/-- A table that was found is exchanged for another one of its name in vain
only when the other one is the same. -/
theorem WellFormed.withTable_eq_self_iff {s : Snapshot} (h : s.WellFormed)
    {name : String} {t new : Table} (found : s.table? name = some t)
    (hname : new.name = t.name) :
    s.withTable name new = s ↔ new = t := by
  constructor
  · intro hself
    have hfound := h.table?_withTable_of_name_eq found hname
    rw [hself, found] at hfound
    exact (Option.some.inj hfound).symm
  · rintro rfl
    exact withTable_self found

/-- Of two tables that stand in one place, one after the other, the second
one stays. -/
theorem withTable_withTable {s : Snapshot} {name : String} {t a : Table}
    (found : s.table? name = some t) (ha : SameName a.name name)
    (b : Table) :
    (s.withTable name a).withTable name b = s.withTable name b := by
  obtain ⟨-, before, after, -, hbefore, hnew⟩ :=
    tables_eq_append_of_table? found
  have hreplaced : ((s.withTable name a).withTable name b).tables =
      before ++ b :: after := by
    rw [withTable, hnew a]
    exact replaceFirst_eq_append b (by simpa using hbefore) (by simpa using ha)
  exact congrArg (Snapshot.mk · s.views) (hreplaced.trans (hnew b).symm)

/-! ### What edits keep -/

/-- Without tables there is nothing to be wrong. -/
theorem wellFormed_empty : ({} : Snapshot).WellFormed :=
  ⟨by simp, by simp [DistinctNames]⟩

/-- No edit breaks a well-formed snapshot. -/
theorem WellFormed.apply {s next : Snapshot} {edit : SchemaEdit}
    {change : SchemaChange} (h : s.WellFormed)
    (accepted : s.apply edit = .ok (change, next)) : next.WellFormed := by
  -- Eight of the edits exchange a table for a valid one, and all of
  -- them but the renaming leave its name alone.
  have keep : ∀ {name : String} {before after : Table},
      s.table? name = some before → after.validate = .ok () →
      after.name = before.name → (s.withTable name after).WellFormed :=
    fun found valid hname => h.withTable found valid <| .inl <| by
      rw [hname]
      exact (tables_eq_append_of_table? found).1
  cases edit with
  | addTable t =>
      obtain ⟨hfree, valid, -, rfl⟩ := apply_addTable.mp accepted
      constructor
      · intro u hu
        rcases List.mem_append.mp hu with hu | hu
        · exact h.valid u hu
        · rw [List.mem_singleton.mp hu]
          exact valid
      · -- The new table stands last. Its name was looked for in vain.
        refine List.pairwise_append.mpr
          ⟨h.distinct, List.pairwise_singleton _ t, fun u hu v hv => ?_⟩
        rw [List.mem_singleton.mp hv]
        exact table?_eq_none_iff.mp hfree u hu
  | removeTable name =>
      obtain ⟨before, -, -, rfl⟩ := apply_removeTable.mp accepted
      -- What is left is a part of what was there.
      exact ⟨fun u hu => h.valid u (List.mem_of_mem_eraseP hu),
        h.distinct.sublist List.eraseP_sublist⟩
  | renameTable source target =>
      obtain ⟨before, found, hname, valid, -, rfl⟩ :=
        apply_renameTable.mp accepted
      exact h.withTable found valid (hname.imp_left SameName.symm)
  | addColumn name c =>
      obtain ⟨before, found, -, valid, -, rfl⟩ :=
        apply_addColumn.mp accepted
      exact keep found valid rfl
  | changeColumn name column target =>
      obtain ⟨before, found, source, -, -, valid, -, rfl⟩ :=
        apply_changeColumn.mp accepted
      exact keep found valid rfl
  | removeColumn name column =>
      obtain ⟨before, found, removed, -, valid, -, rfl⟩ :=
        apply_removeColumn.mp accepted
      exact keep found valid rfl
  | addIndex name i =>
      obtain ⟨before, found, -, valid, -, rfl⟩ :=
        apply_addIndex.mp accepted
      exact keep found valid rfl
  | removeIndex name index =>
      obtain ⟨before, found, removed, -, valid, -, rfl⟩ :=
        apply_removeIndex.mp accepted
      exact keep found valid rfl
  | renameIndex name source target =>
      obtain ⟨before, found, existing, -, -, valid, -, rfl⟩ :=
        apply_renameIndex.mp accepted
      exact keep found valid rfl
  | changePrimaryKey name columns =>
      obtain ⟨before, found, -, valid, -, rfl⟩ :=
        apply_changePrimaryKey.mp accepted
      exact keep found valid rfl
  | removeView name =>
      obtain ⟨view, -, -, rfl⟩ := apply_removeView.mp accepted
      -- Nothing is asked of views.
      exact ⟨h.valid, h.distinct⟩

/-! ### The check of a snapshot that was read -/

/-- Tables pass the check when they are valid, share no names, and have
none of the names the check begins with. -/
theorem checkTables_eq_ok_iff {seen : List String} {ts : List Table} :
    checkTables seen ts = .ok () ↔
      (∀ t ∈ ts, t.validate = .ok ()) ∧ DistinctNames Table.name ts ∧
        ∀ t ∈ ts, ∀ n ∈ seen, ¬ SameName n t.name := by
  induction ts generalizing seen with
  | nil => simp [checkTables, DistinctNames]
  | cons t rest ih =>
      -- The names that have been seen grow by that of the table, so the
      -- rest is compared with it first and then with the others.
      simp only [checkTables, bind_eq_ok_iff, checkTable_eq_ok_iff,
        guard_eq_ok_iff, ih, exists_const, List.any_eq_true,
        decide_eq_true_eq, not_exists, not_and, DistinctNames,
        List.pairwise_cons, List.mem_cons, forall_eq_or_imp,
        forall_and]
      constructor
      · rintro ⟨ht, hseen, hrest, hdistinct, hnames, hothers⟩
        exact ⟨⟨ht, hrest⟩, ⟨hnames, hdistinct⟩, hseen, hothers⟩
      · rintro ⟨⟨ht, hrest⟩, ⟨hnames, hdistinct⟩, hseen, hothers⟩
        exact ⟨ht, hseen, hrest, hdistinct, hnames, hothers⟩

/-- A snapshot passes its check when it is well-formed. -/
theorem validate_eq_ok_iff {s : Snapshot} :
    s.validate = .ok () ↔ s.WellFormed := by
  rw [validate, checkTables_eq_ok_iff]
  constructor
  · exact fun h => ⟨h.1, h.2.1⟩
  · exact fun h => ⟨h.valid, h.distinct, by simp⟩

/-- A snapshot that was read from a text is well-formed. -/
theorem wellFormed_of_ofText {text : String} {s : Snapshot}
    (h : ofText text = .ok s) : s.WellFormed := by
  unfold ofText at h
  split at h
  · simp at h
  · obtain ⟨_, hvalid, hs⟩ := bind_eq_ok_iff.mp h
    obtain rfl : _ = s := by simpa using hs
    exact validate_eq_ok_iff.mp hvalid

/-! ### Edits in a row -/

/-- The snapshot after edits that are made one after the other. -/
def replay (s : Snapshot) :
    List SchemaEdit → Except UpgradeError Snapshot
  | [] => .ok s
  | edit :: rest => do
      let (_, next) ← s.apply edit
      next.replay rest

/-- Edits in a row can be made in two parts. -/
theorem replay_append {s : Snapshot} {xs ys : List SchemaEdit} :
    s.replay (xs ++ ys) = s.replay xs >>= fun next => next.replay ys := by
  induction xs generalizing s with
  | nil => rfl
  | cons edit rest ih =>
      simp only [List.cons_append, replay]
      cases s.apply edit with
      | error e => rfl
      | ok made => exact ih

/-- No list of edits breaks a well-formed snapshot. -/
theorem WellFormed.replay {s next : Snapshot} {edits : List SchemaEdit}
    (h : s.WellFormed) (accepted : s.replay edits = .ok next) :
    next.WellFormed := by
  induction edits generalizing s with
  | nil =>
      obtain rfl : s = next := by simpa [Snapshot.replay] using accepted
      exact h
  | cons edit rest ih =>
      obtain ⟨⟨change, s'⟩, hedit, hrest⟩ := bind_eq_ok_iff.mp accepted
      exact ih (h.apply hedit) hrest

end Snapshot

end SchemaEvolution

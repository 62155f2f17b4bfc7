import Mathlib.Data.List.Forall2
import SchemaEvolution.Proofs.Ddl.KeyLifecycle

/-!
# `SchemaEvolution.Proofs.Ddl.ColumnIndexes`: indexes while a column changes

An index has to be gone while a column under it changes, and has to come
back afterwards under the new name of the column. The planner sees the
table as it is after the change: its indexes name the new column already,
and they are looked up under both names at once. The lemmas here show that
this finds the indexes of the old column and no others, because the new
name is the old one or one that no index can have had.

* `Table.indexesOn_withColumnReplaced`: the indexes under the new name are
  those under the old one, in the same order.
* `Ddl.subject`: what a statement is about.
* `Target.changeColumn_eq_around`: what is written between the drops and
  the creations is about columns, sequences and keys.
* `Target.indexes_follow_column`: the indexes of a column are dropped and
  created around its change.
-/

set_option autoImplicit false

namespace SchemaEvolution

open SchemaEvolution.Text

/-! ### An index whose column is renamed -/

namespace Index

/-- Names that differ only in case are covered alike. -/
theorem covers_congr {i : Index} {a b : String} (h : SameName a b) :
    i.Covers a ↔ i.Covers b :=
  ⟨fun ⟨n, hn, hsame⟩ => ⟨n, hn, hsame.trans h⟩,
   fun ⟨n, hn, hsame⟩ => ⟨n, hn, hsame.trans h.symm⟩⟩

/-- The index `new` is the index `old` after the column `source` has
become `target`. It keeps its name and its kind, and names the columns in
their order: the one that changed by its new name, in whatever case, and
the others as before. -/
structure Follows (source target : String) (old new : Index) : Prop where
  name : new.name = old.name
  unique : new.unique = old.unique
  columns : List.Forall₂
    (fun n m => if SameName n source then SameName m target else m = n)
    old.columns new.columns

/-- An index follows a change of case by staying as it is. -/
theorem follows_self {i : Index} {source target : String}
    (h : SameName target source) : i.Follows source target i where
  name := rfl
  unique := rfl
  columns := List.forall₂_same.mpr fun n _ => by
    split
    · rename_i hn
      exact SameName.trans hn h.symm
    · rfl

/-- The renamed index follows the renaming. -/
theorem follows_withColumnRenamed {i : Index} {source target : String} :
    i.Follows source target (i.withColumnRenamed source target) where
  name := rfl
  unique := rfl
  columns := by
    refine List.forall₂_map_right_iff.mpr
      (List.forall₂_same.mpr fun n _ => ?_)
    by_cases hn : SameName n source
    · simp only [if_pos hn]
      exact SameName.refl target
    · simp only [if_neg hn]

section Renamed

variable {i : Index} {source target : String}

/-- A renamed index covers the new name if it covered the old one, when
it did not cover the new name before. -/
theorem covers_target_withColumnRenamed (free : ¬ i.Covers target) :
    (i.withColumnRenamed source target).Covers target ↔
      i.Covers source := by
  constructor
  · rintro ⟨m, hm, hsame⟩
    obtain ⟨n, hn, rfl⟩ := List.mem_map.mp hm
    split at hsame
    · rename_i hsource
      exact ⟨n, hn, hsource⟩
    · exact absurd ⟨n, hn, hsame⟩ free
  · rintro ⟨n, hn, hsource⟩
    exact ⟨target, List.mem_map.mpr ⟨n, hn, if_pos hsource⟩,
      SameName.refl target⟩

/-- A renamed index does not cover the old name any more. -/
theorem not_covers_source_withColumnRenamed
    (hne : ¬ SameName target source) :
    ¬ (i.withColumnRenamed source target).Covers source := by
  rintro ⟨m, hm, hsame⟩
  obtain ⟨n, -, rfl⟩ := List.mem_map.mp hm
  split at hsame
  · exact hne hsame
  · contradiction

end Renamed

end Index

/-! ### The indexes of a table whose column is replaced -/

namespace Table

variable {t : Table} {name : String} {source new : Column}

theorem indexesOn_congr {a b : List String}
    (h : ∀ i ∈ t.indexes, (∃ n ∈ a, i.Covers n) ↔ ∃ n ∈ b, i.Covers n) :
    t.indexesOn a = t.indexesOn b := by
  refine List.filter_congr fun i hi => ?_
  rw [Bool.eq_iff_iff]
  simpa using h i hi

/-- No index of a valid table covers a name that no column has. -/
theorem not_covers_of_column?_eq_none (valid : t.validate = .ok ())
    {n : String} (free : t.column? n = none) {i : Index}
    (hi : i ∈ t.indexes) : ¬ i.Covers n := by
  rintro ⟨m, hm, hsame⟩
  obtain ⟨c, hc, hcm⟩ := (validate_eq_ok_iff.mp valid).2.2 i hi m hm
  exact column?_eq_none_iff.mp free c hc (hcm.trans hsame)

/-- The indexes under the new name of a column are those under its old
name, and each of them has followed. -/
theorem follows_indexesOn_withColumnReplaced
    (valid : t.validate = .ok ())
    (hname : SameName new.name name ∨ t.column? new.name = none) :
    List.Forall₂ (Index.Follows name new.name) (t.indexesOn [name])
      ((t.withColumnReplaced name new).indexesOn [new.name]) := by
  by_cases hsame : new.IsNamed name
  · -- A change of case leaves the indexes alone.
    have hindexes : (t.withColumnReplaced name new).indexesOn [new.name] =
        t.indexesOn [name] := by
      simp only [indexesOn, withColumnReplaced, if_pos hsame]
      refine List.filter_congr fun i _ => ?_
      simp [Index.covers_congr hsame]
    rw [hindexes]
    exact List.forall₂_same.mpr fun i _ => Index.follows_self hsame
  · -- No index names the new column yet, so those that name it afterwards
    -- are those that were on the old one.
    have free := hname.resolve_left hsame
    have hindexes : (t.withColumnReplaced name new).indexesOn [new.name] =
        (t.indexesOn [name]).map fun i =>
          i.withColumnRenamed name new.name := by
      simp only [indexesOn, withColumnReplaced, if_neg hsame,
        List.filter_map]
      congr 1
      refine List.filter_congr fun i hi => ?_
      have hfree := not_covers_of_column?_eq_none valid free hi
      simp [Index.covers_target_withColumnRenamed hfree]
    rw [hindexes]
    exact List.forall₂_map_right_iff.mpr
      (List.forall₂_same.mpr fun i _ => Index.follows_withColumnRenamed)

/-- Looking under the old name as well finds no further index. -/
theorem indexesOn_withColumnReplaced (hsource : SameName source.name name) :
    (t.withColumnReplaced name new).indexesOn [source.name, new.name] =
      (t.withColumnReplaced name new).indexesOn [new.name] := by
  refine indexesOn_congr fun i hi => ?_
  by_cases hsame : new.IsNamed name
  · have hboth : i.Covers source.name ↔ i.Covers new.name :=
      Index.covers_congr (hsource.trans (SameName.symm hsame))
    simp [hboth]
  · simp only [withColumnReplaced, if_neg hsame] at hi
    obtain ⟨j, -, rfl⟩ := List.mem_map.mp hi
    have hnot := Index.not_covers_source_withColumnRenamed (i := j) hsame
    rw [← Index.covers_congr hsource] at hnot
    simp [hnot]

end Table

/-! ### What statements are about -/

/-- What a schema statement can be about. -/
inductive Ddl.Subject where
  | sequence
  | table
  | column
  | key
  | index
  | view
  /-- What only one vendor knows. -/
  | vendor
deriving DecidableEq

/-- What a schema statement is about. -/
def Ddl.subject : Ddl → Subject
  | .createSequence _ _ | .dropSequence _ => .sequence
  | .createTable _ _ _ _ | .dropTable _ | .renameTable _ _
  | .truncateTable _ | .deleteRows _ => .table
  | .addColumn _ _ | .dropColumn _ _ | .renameColumn _ _ _
  | .alterType _ _ _ | .alterColumn _ _ _ | .fillColumn _ _ _ => .column
  | .dropKey _ | .addKey _ _ => .key
  | .createIndex _ _ | .dropIndex _ _ | .clearIndex _ _ => .index
  | .dropView _ => .view
  | .vendor _ => .vendor

/-- The statement renames a column. -/
def Ddl.RenamesColumn (st : Ddl) : Prop :=
  ∃ table source target, st = .renameColumn table source target

/-- What a dialect writes for a sequence is about sequences, and what it
adds for a column is about columns. An index is dropped by its name. -/
structure Dialect.KeepsSubjects (d : Dialect) : Prop where
  dropIndex : ∀ table i, d.dropIndex table i = [.dropIndex table i.name]
  createSequence : ∀ sequence start, ∀ st ∈ d.createSequence sequence start,
    st.subject = .sequence
  columnAdded : ∀ {table c default? added},
    d.columnAdded table c default? = .ok added → ∀ st ∈ added,
    st.subject = .column
  columnDropped : ∀ table c, ∀ st ∈ d.columnDropped table c,
    st.subject = .column

/-- Standard SQL adds nothing else. -/
theorem Dialect.keepsSubjects_ansi : Dialect.ansi.KeepsSubjects where
  dropIndex := fun _ _ => rfl
  createSequence := by
    intro sequence start st hst
    rw [List.mem_singleton.mp hst]
    rfl
  columnAdded := by
    intro table c default? added hadded st hst
    cases hadded
    cases hst
  columnDropped := by
    intro table c st hst
    cases hst

/-- NuoDB adds nothing else either. -/
theorem Dialect.keepsSubjects_nuoDb : Dialect.nuoDb.KeepsSubjects where
  dropIndex := fun _ _ => rfl
  createSequence := by
    intro sequence start st hst
    rcases List.mem_cons.mp hst with rfl | hst
    · rfl
    · rw [List.mem_singleton.mp hst]
      rfl
  columnAdded := by
    intro table c default? added hadded st hst
    rcases NuoDb.columnAdded_eq_ok hadded with rfl | ⟨value, rfl⟩
    · cases hst
    · rw [List.mem_singleton.mp hst]
      rfl
  columnDropped := by
    intro table c st hst
    cases hst

/-- Both dialects keep to the tables and the subjects of what they are asked
for. -/
theorem Dialect.keeps_of_eq {d : Dialect} (h : d = .ansi ∨ d = .nuoDb) :
    d.KeepsKeys ∧ d.KeepsSubjects := by
  refine ⟨Dialect.keepsKeys_of_eq h, ?_⟩
  rcases h with rfl | rfl
  · exact Dialect.keepsSubjects_ansi
  · exact Dialect.keepsSubjects_nuoDb

/-! ### What is written for a column that changes -/

namespace Target

variable {t : Target}

/-- Indexes that have followed a column are dropped as they were before,
since a drop takes no more than their names. -/
theorem dropIndex_of_follows (keeps : t.dialect.KeepsSubjects)
    {a b : Table} (hplace : t.tableName a = t.tableName b)
    {source target : String} {olds news : List Index}
    (h : List.Forall₂ (Index.Follows source target) olds news) :
    news.flatMap (t.dropIndex a) = olds.flatMap (t.dropIndex b) := by
  induction h with
  | nil => rfl
  | cons hindex _ ih =>
      rw [List.flatMap_cons, List.flatMap_cons, ih, dropIndex, dropIndex,
        keeps.dropIndex, keeps.dropIndex, hindex.name, hplace]

/-- Sequences are created by statements about sequences. -/
theorem subject_createSequences (keeps : t.dialect.KeepsSubjects)
    {table : Table} {columns : List Column} :
    ∀ st ∈ t.createSequences table columns, st.subject = .sequence := by
  intro st hst
  obtain ⟨c, -, hst⟩ := List.mem_flatMap.mp hst
  exact keeps.createSequence _ _ st hst

/-- Sequences are dropped by statements about sequences. -/
theorem subject_dropSequences {table : Table} {columns : List Column} :
    ∀ st ∈ t.dropSequences table columns, st.subject = .sequence := by
  intro st hst
  obtain ⟨c, -, rfl⟩ := List.mem_map.mp hst
  rfl

/-- A key is added by statements about keys. -/
theorem subject_addKey {table : Table} {columns : List String} :
    ∀ st ∈ t.addKey table columns, st.subject = .key := by
  intro st hst
  unfold addKey at hst
  split at hst
  · cases hst
  · rw [List.mem_singleton.mp hst]
    rfl

/-- A column is renamed first, if at all. What else changes where it
stands is about the column, but does not rename it. -/
theorem changeInPlace_eq_cons {table : Table} {source target : Column}
    {ds : List Ddl} (h : t.changeInPlace table source target = .ok ds) :
    ∃ rest : List Ddl,
      (∀ st ∈ rest, st.subject = .column ∧ ¬ st.RenamesColumn) ∧
      ds = (if source.name = target.name then []
          else [t.renameColumn table source.name target.name]) ++ rest := by
  obtain ⟨retyped, alterations, hretyped, rfl⟩ := changeInPlace_eq_ok h
  refine ⟨_, fun st hst => ?_, List.append_assoc _ _ _⟩
  rcases List.mem_append.mp hst with hst | hst
  · rcases hretyped with rfl | ⟨type, rfl⟩
    · cases hst
    · rw [List.mem_singleton.mp hst]
      exact ⟨rfl, by simp [Ddl.RenamesColumn]⟩
  · obtain ⟨alteration, -, rfl⟩ := List.mem_map.mp hst
    exact ⟨rfl, by simp [Ddl.RenamesColumn]⟩

/-- A column gives way to another by statements about columns and
sequences. -/
theorem subject_replaceColumn (keeps : t.dialect.KeepsSubjects)
    {table : Table} {source target : Column} {ds : List Ddl}
    (h : t.replaceColumn table source target = .ok ds) :
    ∀ st ∈ ds, st.subject = .column ∨ st.subject = .sequence := by
  obtain ⟨dropped, hdropped, h⟩ := bind_eq_ok_iff.mp h
  obtain ⟨added, hadded, h⟩ := bind_eq_ok_iff.mp h
  cases h
  -- Both columns are handed on as columns that are in no key.
  obtain rfl := dropColumn_eq_ok hdropped
  obtain ⟨definition, extra, hextra, rfl⟩ := addColumn_eq_ok hadded
  simp only [Bool.false_and, Bool.false_eq_true, if_false,
    List.nil_append, List.append_nil]
  intro st hst
  rcases List.mem_append.mp hst with hst | hst
  · rcases List.mem_append.mp hst with hst | hst
    · rcases List.mem_cons.mp hst with rfl | hst
      · exact .inl rfl
      · exact .inr (subject_dropSequences st hst)
    · exact .inl (keeps.columnDropped _ _ st hst)
  · rcases List.mem_append.mp hst with hst | hst
    · rcases List.mem_append.mp hst with hst | hst
      · exact .inr (subject_createSequences keeps st hst)
      · rw [List.mem_singleton.mp hst]
        exact .inl rfl
    · exact .inl (keeps.columnAdded hextra st hst)

/-- What stands between the drops of the indexes and their creations. It
is about columns, sequences and keys. A column that is renamed, and not
exchanged for another, is renamed once and before anything else is done to
it. -/
theorem changeColumn_eq_around (keeps : t.dialect.KeepsSubjects)
    {table : Table} {source target : Column} {ds : List Ddl}
    (h : t.changeColumn table source target = .ok ds) :
    ∃ middle : List Ddl,
      ds = (table.indexesOn [source.name, target.name]).flatMap
          (t.dropIndex table) ++ middle ++
        (table.indexesOn [source.name, target.name]).map
          (t.createIndex table) ∧
      (∀ st ∈ middle, st.subject = .column ∨ st.subject = .sequence ∨
        st.subject = .key) ∧
      (source.name ≠ target.name →
        source.autoNumbered = target.autoNumbered →
        ∃ first rest, middle = first ++
            t.renameColumn table source.name target.name :: rest ∧
          (∀ st ∈ first, st.subject ≠ .column) ∧
          ∀ st ∈ rest, ¬ st.RenamesColumn) := by
  obtain ⟨changed, hchanged, rfl⟩ := changeColumn_eq_ok h
  -- The key is dropped before the change and added after it, if at all.
  have hfirst : ∀ b : Bool, ∀ st ∈ (if b then [t.dropKey table] else []),
      st.subject = .key := by
    intro b st hst
    split at hst
    · rw [List.mem_singleton.mp hst]
      rfl
    · cases hst
  have hlast : ∀ b : Bool, ∀ st ∈
      (if b then t.addKey table table.primaryKey else []),
      st.subject = .key := by
    intro b st hst
    split at hst
    · exact subject_addKey st hst
    · cases hst
  refine ⟨_, rfl, fun st hst => ?_, fun hname hauto => ?_⟩
  · rcases List.mem_append.mp hst with hst | hst
    · rcases List.mem_append.mp hst with hst | hst
      · exact .inr (.inr (hfirst _ st hst))
      · -- What is between them is the change in place, or the old column
        -- making way for a new one.
        rcases hchanged with ⟨-, hchanged⟩ | ⟨-, hchanged⟩
        · obtain ⟨rest, hrest, rfl⟩ := changeInPlace_eq_cons hchanged
          rcases List.mem_append.mp hst with hst | hst
          · split at hst
            · cases hst
            · rw [List.mem_singleton.mp hst]
              exact .inl rfl
          · exact .inl (hrest st hst).1
        · exact (subject_replaceColumn keeps hchanged st hst).imp_right .inl
    · exact .inr (.inr (hlast _ st hst))
  · -- Only a change in place keeps the column, so only there it is renamed.
    obtain ⟨-, hchanged⟩ := hchanged.resolve_right fun h => h.1 hauto
    obtain ⟨rest, hrest, rfl⟩ := changeInPlace_eq_cons hchanged
    rw [if_neg hname]
    refine ⟨_, rest ++ _, List.append_assoc _ _ _, fun st hst => ?_,
      fun st hst => ?_⟩
    · rw [hfirst _ st hst]
      decide
    · rcases List.mem_append.mp hst with hst | hst
      · exact (hrest st hst).2
      · rintro ⟨_, _, _, rfl⟩
        cases hlast _ _ hst

/-- The indexes of a column are dropped before it changes and created
afterwards, each of them once and in the order of their declaration. What
is dropped is every index of the table, as it was before, that covers the
column; what is created is the same indexes with the column under its new
name. No other index is touched, since all that is written in between is
about columns, sequences and keys. Among these statements, a column that
is renamed, and not exchanged for another, is renamed once and before
anything else is done to it. -/
theorem indexes_follow_column {t : Target}
    (dialect : t.dialect = .ansi ∨ t.dialect = .nuoDb)
    {s next : Snapshot} (wf : s.WellFormed) {name column : String}
    {target : Column} {change : SchemaChange}
    (accepted : s.apply (.changeColumn name column target) =
      .ok (change, next)) {ds : List Ddl}
    (written : t.planChange change = .ok ds) :
    ∃ before source after middle,
      s.table? name = some before ∧ before.column? column = some source ∧
      next.table? name = some after ∧
      ds = (before.indexesOn [column]).flatMap (t.dropIndex before) ++
        middle ++
        (after.indexesOn [target.name]).map (t.createIndex after) ∧
      List.Forall₂ (Index.Follows column target.name)
        (before.indexesOn [column]) (after.indexesOn [target.name]) ∧
      (∀ st ∈ middle, st.subject = .column ∨ st.subject = .sequence ∨
        st.subject = .key) ∧
      (source.name ≠ target.name →
        source.autoNumbered = target.autoNumbered →
        ∃ first rest, middle = first ++
            t.renameColumn after source.name target.name :: rest ∧
          (∀ st ∈ first, st.subject ≠ .column) ∧
          ∀ st ∈ rest, ¬ st.RenamesColumn) := by
  have keeps := Dialect.keeps_of_eq dialect
  obtain ⟨before, found, source, hcolumn, hname, -, rfl, rfl⟩ :=
    Snapshot.apply_changeColumn.mp accepted
  have found_after : (s.withTable name
      (before.withColumnReplaced column target)).table? name =
        some (before.withColumnReplaced column target) :=
    wf.table?_withTable_of_name_eq found rfl
  have valid := wf.validate_of_table? found
  have follows := Table.follows_indexesOn_withColumnReplaced valid hname
  obtain ⟨middle, rfl, hmiddle, hrename⟩ :=
    changeColumn_eq_around keeps.2 written
  refine ⟨before, source, _, middle, found, hcolumn, found_after, ?_,
    follows, hmiddle, hrename⟩
  have hplace : t.tableName (before.withColumnReplaced column target) =
      t.tableName before := tableName_eq keeps.1 rfl rfl
  rw [Table.indexesOn_withColumnReplaced
    (Table.columns_eq_append_of_column? hcolumn).1,
    dropIndex_of_follows keeps.2 hplace follows]

end Target

/-- A table with indexes that overlap, one of which spells a column
otherwise. -/
def exchangeRate : Table where
  name := "Rate"
  columns :=
    [currencyCode, { name := "Day", type := .date },
     { name := "Value", type := .decimal, width := 12, scale := 6 }]
  indexes :=
    [⟨"Rate_I1", ["CODE", "Day"], true⟩, ⟨"Rate_I2", ["Day"], false⟩,
     ⟨"Rate_I3", ["Day", "Code"], false⟩]

/-- The table alone. -/
def exchangeRates : Snapshot := { tables := [exchangeRate] }

/-- The two indexes of a column are rebuilt around its renaming, and the
third one stays. -/
theorem indexes_follow_isoCode :
    ∃ before source after middle,
      exchangeRates.table? "rate" = some before ∧
      before.column? "code" = some source ∧
      (exchangeRates.withTable "rate"
        (exchangeRate.withColumnReplaced "code" isoCode)).table? "rate" =
          some after ∧
      [Ddl.dropIndex ⟨"", "Rate"⟩ "Rate_I1",
       .dropIndex ⟨"", "Rate"⟩ "Rate_I3",
       .dropKey ⟨"", "Rate"⟩,
       .renameColumn ⟨"", "Rate"⟩ "Code" "Iso",
       .addKey ⟨"", "Rate"⟩ ["Iso"],
       .createIndex ⟨"", "Rate"⟩ ⟨"Rate_I1", ["Iso", "Day"], true⟩,
       .createIndex ⟨"", "Rate"⟩ ⟨"Rate_I3", ["Day", "Iso"], false⟩] =
        (before.indexesOn ["code"]).flatMap
            (({ dialect := .nuoDb } : Target).dropIndex before) ++
          middle ++
          (after.indexesOn ["Iso"]).map
            (({ dialect := .nuoDb } : Target).createIndex after) ∧
      List.Forall₂ (Index.Follows "code" "Iso")
        (before.indexesOn ["code"]) (after.indexesOn ["Iso"]) ∧
      (∀ st ∈ middle, st.subject = .column ∨ st.subject = .sequence ∨
        st.subject = .key) ∧
      (source.name ≠ "Iso" → source.autoNumbered = false →
        ∃ first rest, middle = first ++
            ({ dialect := .nuoDb } : Target).renameColumn after source.name
              "Iso" :: rest ∧
          (∀ st ∈ first, st.subject ≠ .column) ∧
          ∀ st ∈ rest, ¬ st.RenamesColumn) := by
  -- The snapshot and the edit are checked by computation, and so are the
  -- statements.
  have wf : exchangeRates.WellFormed := Snapshot.validate_eq_ok_iff.mp
    (toOption_eq_some_iff.mp (by decide +kernel))
  have accepted :
      exchangeRates.apply (.changeColumn "rate" "code" isoCode) =
        .ok (.changeColumn (exchangeRate.withColumnReplaced "code" isoCode)
            currencyCode isoCode,
          exchangeRates.withTable "rate"
            (exchangeRate.withColumnReplaced "code" isoCode)) := by
    refine Snapshot.apply_changeColumn.mpr
      ⟨exchangeRate, rfl, currencyCode, rfl, by decide +kernel, ?_, rfl, rfl⟩
    exact toOption_eq_some_iff.mp (by decide +kernel)
  exact Target.indexes_follow_column (t := { dialect := .nuoDb }) (.inr rfl)
    wf accepted (toOption_eq_some_iff.mp (by decide +kernel))

end SchemaEvolution

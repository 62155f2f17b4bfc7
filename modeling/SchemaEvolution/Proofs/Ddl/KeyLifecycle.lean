import SchemaEvolution.Ddl.ColumnPlan
import SchemaEvolution.Dialect.NuoDb
import SchemaEvolution.Proofs.Ddl.TableKey
import SchemaEvolution.Proofs.Upgrade.Snapshot

/-!
# `SchemaEvolution.Proofs.Ddl.KeyLifecycle`: keys while tables change

The planner is given a table as it is after an edit. It has to find out
from that whether the table had a key before, so as to drop it before
any of its columns is touched and to add it again at the end. The lemmas
here run what the planner writes in the database of
`SchemaEvolution.Proofs.Ddl.TableKey`, and show that it never goes wrong
in that. Each of them has the columns of the table split at the one
column that the edit is about; the names of the others differ from its
name by more than case, and this is what the planner relies on.

* `Dialect.keepsKeys_ansi`, `Dialect.keepsKeys_nuoDb`: what the dialects
  add to the statements does not touch keys.
* `Target.run_addColumn`, `run_dropColumn`, `run_changeColumn`,
  `run_changeKey`, `run_renameTable`: what is written for each kind of
  change.
* `Target.keyFollows_withTable`, `keyFollows_addColumn`,
  `keyFollows_changeColumn`, `keyFollows_removeColumn`,
  `keyFollows_changePrimaryKey`, `keyFollows_renameTable`: one lemma for
  each kind of edit.
* `Target.key_follows_edit`: the key of a table follows every edit.
-/

set_option autoImplicit false

namespace SchemaEvolution

open SchemaEvolution.Text

/-! ### Dialects that leave keys alone -/

/-- The rules of the dialect do not touch keys, and what stands before a
table hangs on nothing but its name and whether it is temporary. -/
structure Dialect.KeepsKeys (d : Dialect) : Prop where
  tableQualifier : ∀ qualifier {a b : Table}, a.name = b.name →
    a.temporary = b.temporary →
    d.tableQualifier qualifier a = d.tableQualifier qualifier b
  createSequence : ∀ sequence start, ∀ st ∈ d.createSequence sequence start,
    ∀ k : TableKey, k.Keeps st
  dropIndex : ∀ table i, ∀ st ∈ d.dropIndex table i,
    ∀ k : TableKey, k.Keeps st
  columnAdded : ∀ {table c default? added},
    d.columnAdded table c default? = .ok added → ∀ st ∈ added,
    ∀ key, TableKey.Keeps ⟨table, key⟩ st
  columnDropped : ∀ table c, ∀ st ∈ d.columnDropped table c,
    ∀ key, TableKey.Keeps ⟨table, key⟩ st

/-- Standard SQL leaves keys alone. -/
theorem Dialect.keepsKeys_ansi : Dialect.ansi.KeepsKeys where
  tableQualifier := fun _ _ _ _ _ => rfl
  createSequence := by
    intro sequence start st hst k
    rw [List.mem_singleton.mp hst]
    rfl
  dropIndex := by
    intro table i st hst k
    rw [List.mem_singleton.mp hst]
    rfl
  columnAdded := by
    intro table c default? added hadded st hst
    cases hadded
    cases hst
  columnDropped := by
    intro table c st hst
    cases hst

/-- What NuoDB does about a new column fills it at most. -/
theorem NuoDb.columnAdded_eq_ok {table : ObjectName} {c : Column}
    {default? : Except RenderError (Option String)} {added : List Ddl}
    (h : NuoDb.columnAdded table c default? = .ok added) :
    added = [] ∨ ∃ value, added = [.fillColumn table c.name value] := by
  unfold NuoDb.columnAdded at h
  split at h
  · obtain ⟨value?, -, h⟩ := bind_eq_ok_iff.mp h
    cases value? with
    | none =>
        cases h
        exact .inl rfl
    | some value =>
        cases h
        exact .inr ⟨value, rfl⟩
  · cases h
    exact .inl rfl

/-- So does NuoDB. -/
theorem Dialect.keepsKeys_nuoDb : Dialect.nuoDb.KeepsKeys where
  tableQualifier := by
    intro qualifier a b _ htemporary
    show (if a.temporary then _ else _) = (if b.temporary then _ else _)
    rw [htemporary]
  createSequence := by
    intro sequence start st hst k
    -- NuoDB drops the sequence that it is about to create.
    rcases List.mem_cons.mp hst with rfl | hst
    · rfl
    · rw [List.mem_singleton.mp hst]
      rfl
  dropIndex := by
    intro table i st hst k
    rw [List.mem_singleton.mp hst]
    rfl
  columnAdded := by
    intro table c default? added hadded st hst key
    -- It may fill the new column, which does not touch the key.
    rcases NuoDb.columnAdded_eq_ok hadded with rfl | ⟨value, rfl⟩
    · cases hst
    · rw [List.mem_singleton.mp hst]
      exact if_pos rfl
  columnDropped := by
    intro table c st hst
    cases hst

/-- Both dialects leave keys alone. -/
theorem Dialect.keepsKeys_of_eq {d : Dialect}
    (h : d = .ansi ∨ d = .nuoDb) : d.KeepsKeys := by
  rcases h with rfl | rfl
  · exact Dialect.keepsKeys_ansi
  · exact Dialect.keepsKeys_nuoDb

/-! ### Tables and their keys -/

/-- The key constraint that a table is to have. -/
def Table.key? (t : Table) : Option (List String) :=
  TableKey.ofNames t.primaryKey

/-! ### Key columns beside one column -/

section Beside

variable {before after : List Column} {c : Column}

theorem any_of_forall {α : Type} {p : α → Bool} {xs : List α}
    (h : ∀ x ∈ xs, p x = true) : xs.any p = !xs.isEmpty := by
  cases xs with
  | nil => rfl
  | cons x rest => simp [h x List.mem_cons_self]

/-- There are key columns unless the one column is none and neither is
any beside it. -/
theorem isEmpty_keyColumns_split :
    (keyColumns (before ++ c :: after)).isEmpty =
      (!c.inKey && (keyColumns (before ++ after)).isEmpty) := by
  rw [keyColumns_append, keyColumns_append, keyColumns_cons]
  cases hc : c.inKey <;> simp

/-- Columns that are in no key do not show in one. -/
theorem keyColumns_split_of_not_inKey (hc : c.inKey = false) :
    keyColumns (before ++ c :: after) = keyColumns (before ++ after) := by
  rw [keyColumns_append, keyColumns_append, keyColumns_cons, hc]
  rfl

/-- What the planner asks to find out whether the key has a column
beside this one. It works because names differ by more than case. -/
theorem any_not_isNamed
    (hnames : ∀ d, d ∈ before ∨ d ∈ after → ¬ SameName d.name c.name) :
    (keyColumns (before ++ c :: after)).any (fun n => !c.IsNamed n) =
      !(keyColumns (before ++ after)).isEmpty := by
  have hothers : ∀ n ∈ keyColumns (before ++ after),
      (!decide (c.IsNamed n)) = true := by
    intro n hn
    obtain ⟨d, hd, rfl⟩ := mem_of_mem_keyColumns hn
    have hne := hnames d (List.mem_append.mp hd)
    rw [Bool.not_eq_true', decide_eq_false_iff_not]
    exact fun hsame => hne (SameName.symm hsame)
  -- The column itself is passed over, however its name is spelled.
  have hself : decide (c.IsNamed c.name) = true :=
    decide_eq_true (SameName.refl c.name)
  rw [← any_of_forall hothers, keyColumns_append, keyColumns_append,
    keyColumns_cons]
  cases hc : c.inKey <;> simp [hself]

/-- A key without this column does not cover a name that is the name of
no other column. -/
theorem not_covers_of_split {table : ObjectName} {name : String}
    (hnames : ∀ d, d ∈ before ∨ d ∈ after → ¬ SameName d.name name) :
    ¬ TableKey.Covers
      ⟨table, TableKey.ofNames (keyColumns (before ++ after))⟩ name := by
  rw [TableKey.covers_ofNames_iff]
  rintro ⟨n, hn, hsame⟩
  obtain ⟨d, hd, rfl⟩ := mem_of_mem_keyColumns hn
  exact hnames d (List.mem_append.mp hd) hsame

end Beside

namespace Target

variable {t : Target}

/-- A table keeps its place when neither its name nor its kind
changes. -/
theorem tableName_eq (keeps : t.dialect.KeepsKeys) {a b : Table}
    (hname : a.name = b.name) (htemporary : a.temporary = b.temporary) :
    t.tableName a = t.tableName b := by
  unfold tableName tableQualifier
  rw [hname, keeps.tableQualifier _ hname htemporary]

/-- The statements about sequences do not touch tables. -/
theorem keeps_createSequences (keeps : t.dialect.KeepsKeys)
    {table : Table} {columns : List Column} :
    ∀ st ∈ t.createSequences table columns, ∀ k : TableKey,
      k.Keeps st := by
  intro st hst
  obtain ⟨c, -, hst⟩ := List.mem_flatMap.mp hst
  exact keeps.createSequence _ _ st hst

theorem keeps_dropSequences {table : Table} {columns : List Column} :
    ∀ st ∈ t.dropSequences table columns, ∀ k : TableKey,
      k.Keeps st := by
  intro st hst k
  obtain ⟨c, -, rfl⟩ := List.mem_map.mp hst
  rfl

/-! ### Adding a column -/

/-- The parts that the addition of a column is written in. -/
theorem addColumn_eq_ok {table : Table} {c : Column} {ds : List Ddl}
    (h : t.addColumn table c = .ok ds) :
    ∃ definition added,
      t.dialect.columnAdded (t.tableName table) c (t.defaultSql table c) =
        .ok added ∧
      ds = (if c.inKey && table.primaryKey.any (fun n => !c.IsNamed n)
          then [t.dropKey table] else []) ++
        (t.createSequences table [c] ++
          [.addColumn (t.tableName table) definition]) ++
        (if c.inKey then t.addKey table table.primaryKey else []) ++
        added := by
  obtain ⟨-, -, h⟩ := bind_eq_ok_iff.mp h
  obtain ⟨definition, -, h⟩ := bind_eq_ok_iff.mp h
  obtain ⟨added, hadded, h⟩ := bind_eq_ok_iff.mp h
  refine ⟨definition, added, hadded, ?_⟩
  cases h
  simp only [List.append_assoc]

/-- The statements that add a column, without those about the key, leave
what key there is alone. -/
theorem keeps_addColumn (keeps : t.dialect.KeepsKeys) {table : Table}
    {c : Column} (definition : ColumnDefinition)
    {key : Option (List String)} :
    ∀ st ∈ t.createSequences table [c] ++
        [.addColumn (t.tableName table) definition],
      TableKey.Keeps ⟨t.tableName table, key⟩ st := by
  intro st hst
  rcases List.mem_append.mp hst with hst | hst
  · exact keeps_createSequences keeps st hst _
  · rw [List.mem_singleton.mp hst]
    exact if_pos rfl

/-- The key takes a new column in, or stays as it is. -/
theorem run_addColumn (keeps : t.dialect.KeepsKeys) {table : Table}
    {before after : List Column} {c : Column} {ds : List Ddl}
    (hcolumns : table.columns = before ++ c :: after)
    (hnames : ∀ d, d ∈ before ∨ d ∈ after → ¬ SameName d.name c.name)
    (written : t.addColumn table c = .ok ds) :
    TableKey.run ⟨t.tableName table,
        TableKey.ofNames (keyColumns (before ++ after))⟩ ds =
      some ⟨t.tableName table, table.key?⟩ := by
  obtain ⟨definition, added, hadded, rfl⟩ := addColumn_eq_ok written
  have hlast : ∀ key, TableKey.run ⟨t.tableName table, key⟩ added = _ :=
    fun key => TableKey.run_of_forall_keeps fun st hst =>
      keeps.columnAdded hadded st hst key
  have hbetween : ∀ key, TableKey.run ⟨t.tableName table, key⟩ _ = _ :=
    fun key => TableKey.run_of_forall_keeps
      (keeps_addColumn keeps (c := c) definition)
  rw [Table.key?, Table.primaryKey_eq, hcolumns, any_not_isNamed hnames]
  cases hc : c.inKey with
  | true =>
      -- The key was there before if another column is in it.
      refine (TableKey.run_append_of_run
        (TableKey.run_rebuild ?_ (hbetween none) ?_)).trans (hlast _)
      · rw [Bool.true_and, dropKey]
        cases (keyColumns (before ++ after)).isEmpty <;> rfl
      · rfl
  | false =>
      -- The new column is in no key, and the key stays where it is.
      rw [keyColumns_split_of_not_inKey hc]
      simp only [Bool.false_and, Bool.false_eq_true, if_false,
        List.nil_append, List.append_nil]
      rw [TableKey.run_append_of_run (hbetween _), hlast]

/-! ### Dropping a column -/

/-- The parts that the removal of a column is written in. -/
theorem dropColumn_eq_ok {table : Table} {c : Column} {ds : List Ddl}
    (h : t.dropColumn table c = .ok ds) :
    ds = (if c.inKey then [t.dropKey table] else []) ++
        (.dropColumn (t.tableName table) c.name ::
          t.dropSequences table [c]) ++
        (if c.inKey then t.addKey table table.primaryKey else []) ++
        t.dialect.columnDropped (t.tableName table) c := by
  obtain ⟨-, -, h⟩ := bind_eq_ok_iff.mp h
  cases h
  simp only [List.append_assoc, List.cons_append, List.nil_append]

/-- The statements that drop a column, without those about the key, leave
a key alone that does not cover the column. -/
theorem keeps_dropColumn (table : Table) (c : Column)
    {key : Option (List String)}
    (hcovers : ¬ TableKey.Covers ⟨t.tableName table, key⟩ c.name) :
    ∀ st ∈ Ddl.dropColumn (t.tableName table) c.name ::
        t.dropSequences table [c],
      TableKey.Keeps ⟨t.tableName table, key⟩ st := by
  intro st hst
  rcases List.mem_cons.mp hst with rfl | hst
  · exact TableKey.onColumn_of_not_covers hcovers
  · exact keeps_dropSequences st hst _

/-- The key loses a column, or stays as it is. -/
theorem run_dropColumn (keeps : t.dialect.KeepsKeys) {table : Table}
    {before after : List Column} {c : Column} {ds : List Ddl}
    (hcolumns : table.columns = before ++ after)
    (hnames : ∀ d, d ∈ before ∨ d ∈ after → ¬ SameName d.name c.name)
    (written : t.dropColumn table c = .ok ds) :
    TableKey.run ⟨t.tableName table,
        TableKey.ofNames (keyColumns (before ++ c :: after))⟩ ds =
      some ⟨t.tableName table, table.key?⟩ := by
  obtain rfl := dropColumn_eq_ok written
  have hlast : ∀ key, TableKey.run ⟨t.tableName table, key⟩
      (t.dialect.columnDropped (t.tableName table) c) = _ :=
    fun key => TableKey.run_of_forall_keeps fun st hst =>
      keeps.columnDropped _ _ st hst key
  rw [Table.key?, Table.primaryKey_eq, hcolumns]
  cases hc : c.inKey with
  | true =>
      -- The key was there, since the column was in it.
      have hbetween := TableKey.run_of_forall_keeps
        (keeps_dropColumn (t := t) table c TableKey.not_covers_none)
      refine (TableKey.run_append_of_run
        (TableKey.run_rebuild ?_ hbetween ?_)).trans (hlast _)
      · rw [isEmpty_keyColumns_split, hc]
        rfl
      · rfl
  | false =>
      -- The key stays while the column is dropped, but does not cover it.
      rw [keyColumns_split_of_not_inKey hc]
      have hbetween := TableKey.run_of_forall_keeps
        (keeps_dropColumn (t := t) table c (not_covers_of_split hnames))
      simp only [Bool.false_eq_true, if_false, List.nil_append,
        List.append_nil]
      rw [TableKey.run_append_of_run hbetween, hlast]

/-! ### Changing a column -/

/-- The parts that the change of a column where it stands is written
in. -/
theorem changeInPlace_eq_ok {table : Table} {source target : Column}
    {ds : List Ddl} (h : t.changeInPlace table source target = .ok ds) :
    ∃ (retyped : List Ddl) (alterations : List ColumnAlteration),
      (retyped = [] ∨ ∃ type, retyped =
        [.alterType (t.tableName table) target.name type]) ∧
      ds = (if source.name = target.name then []
          else [t.renameColumn table source.name target.name]) ++
        retyped ++
        alterations.map (.alterColumn (t.tableName table) target.name) := by
  unfold changeInPlace at h
  -- The type is written only if it changes.
  by_cases htype : source.SameType target
  · simp only [if_pos htype] at h
    obtain ⟨retyped, hretyped, h⟩ := bind_eq_ok_iff.mp h
    obtain ⟨altered, haltered, h⟩ := bind_eq_ok_iff.mp h
    obtain ⟨alterations, -, haltered⟩ := bind_eq_ok_iff.mp haltered
    cases hretyped
    cases haltered
    cases h
    exact ⟨[], alterations, .inl rfl, rfl⟩
  · simp only [if_neg htype] at h
    obtain ⟨statement, hstatement, h⟩ := bind_eq_ok_iff.mp h
    obtain ⟨type, -, hstatement⟩ := bind_eq_ok_iff.mp hstatement
    obtain ⟨retyped, hretyped, h⟩ := bind_eq_ok_iff.mp h
    obtain ⟨altered, haltered, h⟩ := bind_eq_ok_iff.mp h
    obtain ⟨alterations, -, haltered⟩ := bind_eq_ok_iff.mp haltered
    cases hstatement
    cases hretyped
    cases haltered
    cases h
    exact ⟨_, alterations, .inr ⟨type, rfl⟩, rfl⟩

/-- A column that is changed where it stands is named, retyped and
altered under its own names only. -/
theorem keeps_changeInPlace {table : Table} {source target : Column}
    {key : Option (List String)} {ds : List Ddl}
    (hsource : ¬ TableKey.Covers ⟨t.tableName table, key⟩ source.name)
    (htarget : ¬ TableKey.Covers ⟨t.tableName table, key⟩ target.name)
    (written : t.changeInPlace table source target = .ok ds) :
    ∀ st ∈ ds, TableKey.Keeps ⟨t.tableName table, key⟩ st := by
  obtain ⟨retyped, alterations, hretyped, rfl⟩ :=
    changeInPlace_eq_ok written
  intro st hst
  rcases List.mem_append.mp hst with hst | hst
  · rcases List.mem_append.mp hst with hst | hst
    · split at hst
      · cases hst
      · rw [List.mem_singleton.mp hst]
        exact TableKey.onColumn_of_not_covers hsource
    · rcases hretyped with rfl | ⟨type, rfl⟩
      · cases hst
      · rw [List.mem_singleton.mp hst]
        exact TableKey.onColumn_of_not_covers htarget
  · obtain ⟨alteration, -, rfl⟩ := List.mem_map.mp hst
    exact TableKey.onColumn_of_not_covers htarget

/-- A column that gives way to another is dropped as one that is in no
key, and so is the other added. -/
theorem keeps_replaceColumn (keeps : t.dialect.KeepsKeys) {table : Table}
    {source target : Column} {key : Option (List String)}
    {ds : List Ddl}
    (hsource : ¬ TableKey.Covers ⟨t.tableName table, key⟩ source.name)
    (written : t.replaceColumn table source target = .ok ds) :
    ∀ st ∈ ds, TableKey.Keeps ⟨t.tableName table, key⟩ st := by
  obtain ⟨dropped, hdropped, h⟩ := bind_eq_ok_iff.mp written
  obtain ⟨added, hadded, h⟩ := bind_eq_ok_iff.mp h
  cases h
  -- Both columns are handed on as columns that are in no key, so that
  -- neither part writes anything about the key.
  obtain rfl := dropColumn_eq_ok hdropped
  obtain ⟨definition, extra, hextra, rfl⟩ := addColumn_eq_ok hadded
  simp only [Bool.false_and, Bool.false_eq_true, if_false,
    List.nil_append, List.append_nil]
  intro st hst
  rcases List.mem_append.mp hst with hst | hst
  · rcases List.mem_append.mp hst with hst | hst
    · exact keeps_dropColumn table { source with inKey := false } hsource
        st hst
    · exact keeps.columnDropped _ _ st hst key
  · rcases List.mem_append.mp hst with hst | hst
    · exact keeps_addColumn keeps _ st hst
    · exact keeps.columnAdded hextra st hst key

/-- The parts that the change of a column is written in. -/
theorem changeColumn_eq_ok {table : Table} {source target : Column}
    {ds : List Ddl} (h : t.changeColumn table source target = .ok ds) :
    ∃ changed, (source.autoNumbered = target.autoNumbered ∧
          t.changeInPlace table source target = .ok changed ∨
        source.autoNumbered ≠ target.autoNumbered ∧
          t.replaceColumn table source target = .ok changed) ∧
      ds = (table.indexesOn [source.name, target.name]).flatMap
          (t.dropIndex table) ++
        ((if source.inKey || (target.inKey &&
              table.primaryKey.any fun n => !target.IsNamed n) then
            [t.dropKey table] else []) ++ changed ++
          (if source.inKey || target.inKey then
            t.addKey table table.primaryKey else [])) ++
        (table.indexesOn [source.name, target.name]).map
          (t.createIndex table) := by
  obtain ⟨-, -, h⟩ := bind_eq_ok_iff.mp h
  obtain ⟨-, -, h⟩ := bind_eq_ok_iff.mp h
  -- A column that starts or stops numbering itself gives way to a new one.
  by_cases hauto : source.autoNumbered = target.autoNumbered
  · simp only [if_pos hauto] at h
    obtain ⟨changed, hchanged, h⟩ := bind_eq_ok_iff.mp h
    cases h
    refine ⟨changed, .inl ⟨hauto, hchanged⟩, ?_⟩
    simp only [List.append_assoc]
  · simp only [if_neg hauto] at h
    obtain ⟨changed, hchanged, h⟩ := bind_eq_ok_iff.mp h
    cases h
    refine ⟨changed, .inr ⟨hauto, hchanged⟩, ?_⟩
    simp only [List.append_assoc]

/-- The key follows a column that changes, whether the column comes into
the key, goes out of it or changes within. -/
theorem run_changeColumn (keeps : t.dialect.KeepsKeys) {table : Table}
    {before after : List Column} {source target : Column}
    {ds : List Ddl} (hcolumns : table.columns = before ++ target :: after)
    (hsource : ∀ d, d ∈ before ∨ d ∈ after →
      ¬ SameName d.name source.name)
    (htarget : ∀ d, d ∈ before ∨ d ∈ after →
      ¬ SameName d.name target.name)
    (written : t.changeColumn table source target = .ok ds) :
    TableKey.run ⟨t.tableName table,
        TableKey.ofNames (keyColumns (before ++ source :: after))⟩ ds =
      some ⟨t.tableName table, table.key?⟩ := by
  obtain ⟨changed, hchanged, rfl⟩ := changeColumn_eq_ok written
  have hindexes : ∀ key, TableKey.run ⟨t.tableName table, key⟩
      ((table.indexesOn [source.name, target.name]).flatMap
        (t.dropIndex table)) = _ := fun key =>
    TableKey.run_of_forall_keeps fun st hst => by
      obtain ⟨i, -, hst⟩ := List.mem_flatMap.mp hst
      exact keeps.dropIndex _ _ st hst _
  have hlast : ∀ key, TableKey.run ⟨t.tableName table, key⟩
      ((table.indexesOn [source.name, target.name]).map
        (t.createIndex table)) = _ := fun key =>
    TableKey.run_of_forall_keeps fun st hst => by
      obtain ⟨i, -, rfl⟩ := List.mem_map.mp hst
      rfl
  have hbetween : ∀ key,
      ¬ TableKey.Covers ⟨t.tableName table, key⟩ source.name →
      ¬ TableKey.Covers ⟨t.tableName table, key⟩ target.name →
      TableKey.run ⟨t.tableName table, key⟩ changed = _ :=
    fun key hsource htarget => TableKey.run_of_forall_keeps <| by
      rcases hchanged with ⟨-, hchanged⟩ | ⟨-, hchanged⟩
      · exact keeps_changeInPlace hsource htarget hchanged
      · exact keeps_replaceColumn keeps hsource hchanged
  rw [List.append_assoc, TableKey.run_append_of_run (hindexes _)]
  rw [Table.key?, Table.primaryKey_eq, hcolumns, any_not_isNamed htarget]
  cases hkey : source.inKey || target.inKey with
  | true =>
      -- The key is rebuilt. It was there before when the old column was
      -- in it, or when there are other key columns.
      refine (TableKey.run_append_of_run (TableKey.run_rebuild ?_
        (hbetween none TableKey.not_covers_none TableKey.not_covers_none)
        ?_)).trans (hlast _)
      · rw [isEmpty_keyColumns_split, dropKey]
        cases hs : source.inKey with
        | true => rfl
        | false =>
            rw [hs, Bool.false_or] at hkey
            rw [hkey]
            cases (keyColumns (before ++ after)).isEmpty <;> rfl
      · rfl
  | false =>
      -- Neither side is in the key, which may stay where it is.
      obtain ⟨hs, ht⟩ := Bool.or_eq_false_iff.mp hkey
      rw [keyColumns_split_of_not_inKey hs, keyColumns_split_of_not_inKey ht,
        hs, ht]
      simp only [Bool.false_and, Bool.or_false, Bool.false_eq_true,
        if_false, List.nil_append, List.append_nil]
      rw [TableKey.run_append_of_run (hbetween _
        (not_covers_of_split hsource) (not_covers_of_split htarget)),
        hlast]

/-! ### Changing the key, renaming the table -/

/-- A key is dropped if there is one, and added if there is to be
one. -/
theorem run_changeKey {table : Table} {source : List String}
    {ds : List Ddl}
    (written : t.changeKey table source table.primaryKey = .ok ds) :
    TableKey.run ⟨t.tableName table, TableKey.ofNames source⟩ ds =
      some ⟨t.tableName table, table.key?⟩ := by
  obtain ⟨-, -, h⟩ := bind_eq_ok_iff.mp written
  cases h
  -- Nothing stands between the drop and the addition.
  rw [← List.append_nil (if source.isEmpty then [] else _)]
  exact TableKey.run_rebuild rfl rfl rfl

/-- The key is dropped under the old name of the table and added under
the new one. -/
theorem run_renameTable {source target : Table} {ds : List Ddl}
    (written : t.renameTable source target = .ok ds) :
    TableKey.run ⟨t.tableName source, source.key?⟩ ds =
      some ⟨t.tableName target, target.key?⟩ := by
  obtain ⟨-, -, h⟩ := bind_eq_ok_iff.mp written
  obtain ⟨-, -, h⟩ := bind_eq_ok_iff.mp h
  cases h
  -- The renaming alone stands between the drop and the addition.
  refine TableKey.run_rebuild rfl ?_ rfl
  exact TableKey.run_cons_of_step (if_pos rfl)

end Target

/-! ### Edits of a table -/

namespace SchemaEdit

/-- The edit changes the columns, the key or the name of a table. -/
def ChangesTable : SchemaEdit → Prop
  | .addColumn _ _ | .changeColumn _ _ _ | .removeColumn _ _
  | .changePrimaryKey _ _ | .renameTable _ _ => True
  | _ => False

/-- The name of the table that an edit is about, as it is after the
edit. -/
def outcome : SchemaEdit → String
  | .renameTable _ target => target
  | edit => edit.target

end SchemaEdit

namespace Target

/-- The statements start from the key that the table `source` has in `s`,
and leave the key that the table `target` has in `next`. -/
def KeyFollows (t : Target) (s next : Snapshot) (source target : String)
    (ds : List Ddl) : Prop :=
  ∃ before after, s.table? source = some before ∧
    next.table? target = some after ∧
    TableKey.run ⟨t.tableName before, before.key?⟩ ds =
      some ⟨t.tableName after, after.key?⟩

section Edits

variable {t : Target} {s next : Snapshot} {name column : String}
  {c : Column} {columns : List String} {change : SchemaChange}
  {ds : List Ddl}

/-- A table is exchanged for one of the same name and kind, which is then
found under the name that the old one was found under. -/
theorem keyFollows_withTable (keeps : t.dialect.KeepsKeys)
    (wf : s.WellFormed) {before after : Table}
    (found : s.table? name = some before) (hname : after.name = before.name)
    (htemporary : after.temporary = before.temporary)
    (hrun : TableKey.run ⟨t.tableName after, before.key?⟩ ds =
      some ⟨t.tableName after, after.key?⟩) :
    t.KeyFollows s (s.withTable name after) name name ds := by
  refine ⟨before, after, found,
    wf.table?_withTable_of_name_eq found hname, ?_⟩
  rw [tableName_eq keeps hname.symm htemporary.symm]
  exact hrun

/-- The key follows a column that is added. -/
theorem keyFollows_addColumn (keeps : t.dialect.KeepsKeys)
    (wf : s.WellFormed)
    (accepted : s.apply (.addColumn name c) = .ok (change, next))
    (written : t.planChange change = .ok ds) :
    t.KeyFollows s next name name ds := by
  obtain ⟨before, found, free, -, rfl, rfl⟩ :=
    Snapshot.apply_addColumn.mp accepted
  have hnames : ∀ d, d ∈ before.columns ∨ d ∈ [] →
      ¬ SameName d.name c.name := by
    rintro d (hd | hd)
    · exact Table.column?_eq_none_iff.mp free d hd
    · cases hd
  have hcolumns : (before.withColumn c).columns =
      before.columns ++ c :: [] := rfl
  have hrun := run_addColumn keeps hcolumns hnames written
  rw [List.append_nil] at hrun
  exact keyFollows_withTable keeps wf found rfl rfl hrun

/-- The key follows a column that changes. -/
theorem keyFollows_changeColumn (keeps : t.dialect.KeepsKeys)
    (wf : s.WellFormed)
    (accepted : s.apply (.changeColumn name column c) = .ok (change, next))
    (written : t.planChange change = .ok ds) :
    t.KeyFollows s next name name ds := by
  obtain ⟨before, found, source, hcolumn, -, valid, rfl, rfl⟩ :=
    Snapshot.apply_changeColumn.mp accepted
  refine keyFollows_withTable keeps wf found rfl rfl ?_
  obtain ⟨hsource, front, back, hsplit, hfront⟩ :=
    Table.columns_eq_append_of_column? hcolumn
  have hcolumns := Table.columns_withColumnReplaced c hsplit hfront hsource
  -- Names differ by more than case before the edit and after it.
  have hold := wf.distinctNames_of_table? found
  have hnew := Table.distinctNames_of_validate valid
  rw [hsplit] at hold
  rw [hcolumns] at hnew
  rw [Table.key?, Table.primaryKey_eq, hsplit]
  exact run_changeColumn keeps hcolumns (fun d hd => hold.not_sameName hd)
    (fun d hd => hnew.not_sameName hd) written

/-- The key follows a column that is removed. -/
theorem keyFollows_removeColumn (keeps : t.dialect.KeepsKeys)
    (wf : s.WellFormed)
    (accepted : s.apply (.removeColumn name column) = .ok (change, next))
    (written : t.planChange change = .ok ds) :
    t.KeyFollows s next name name ds := by
  obtain ⟨before, found, removed, hcolumn, -, rfl, rfl⟩ :=
    Snapshot.apply_removeColumn.mp accepted
  refine keyFollows_withTable keeps wf found rfl rfl ?_
  obtain ⟨hremoved, front, back, hsplit, -⟩ :=
    Table.columns_eq_append_of_column? hcolumn
  have hold := wf.distinctNames_of_table? found
  rw [hsplit] at hold
  have hnames : ∀ d, d ∈ front ∨ d ∈ back →
      ¬ SameName d.name removed.name := fun d hd => hold.not_sameName hd
  have hcolumns := Table.columns_withoutColumn hsplit hnames hremoved
  rw [Table.key?, Table.primaryKey_eq, hsplit]
  exact run_dropColumn keeps hcolumns hnames written

/-- The key follows a change of the key itself. -/
theorem keyFollows_changePrimaryKey (keeps : t.dialect.KeepsKeys)
    (wf : s.WellFormed)
    (accepted : s.apply (.changePrimaryKey name columns) =
      .ok (change, next))
    (written : t.planChange change = .ok ds) :
    t.KeyFollows s next name name ds := by
  obtain ⟨before, found, -, -, rfl, rfl⟩ :=
    Snapshot.apply_changePrimaryKey.mp accepted
  exact keyFollows_withTable keeps wf found rfl rfl (run_changeKey written)

/-- The key follows a table that is renamed. -/
theorem keyFollows_renameTable (wf : s.WellFormed) {source target : String}
    (accepted : s.apply (.renameTable source target) = .ok (change, next))
    (written : t.planChange change = .ok ds) :
    t.KeyFollows s next source target ds := by
  obtain ⟨before, found, hname, -, rfl, rfl⟩ :=
    Snapshot.apply_renameTable.mp accepted
  exact ⟨before, _, found,
    wf.table?_withTable found (hname.imp_left SameName.symm),
    run_renameTable written⟩

end Edits

/-- The key constraint of a table follows every edit of the table. The
statements of the edit start from the key that the table had before, and
leave the key that it has afterwards; on the way they drop no key that is
not there, add none where there is one, and touch no column of a key that
is there. -/
theorem key_follows_edit {t : Target}
    (dialect : t.dialect = .ansi ∨ t.dialect = .nuoDb)
    {s next : Snapshot} (wf : s.WellFormed) {edit : SchemaEdit}
    (kind : edit.ChangesTable) {change : SchemaChange}
    (accepted : s.apply edit = .ok (change, next)) {ds : List Ddl}
    (written : t.planChange change = .ok ds) :
    ∃ before after, s.table? edit.target = some before ∧
      next.table? edit.outcome = some after ∧
      TableKey.run ⟨t.tableName before, before.key?⟩ ds =
        some ⟨t.tableName after, after.key?⟩ := by
  have keeps := Dialect.keepsKeys_of_eq dialect
  cases edit with
  | addColumn name c => exact keyFollows_addColumn keeps wf accepted written
  | changeColumn name column target =>
      exact keyFollows_changeColumn keeps wf accepted written
  | removeColumn name column =>
      exact keyFollows_removeColumn keeps wf accepted written
  | changePrimaryKey name columns =>
      exact keyFollows_changePrimaryKey keeps wf accepted written
  | renameTable source target =>
      exact keyFollows_renameTable wf accepted written
  -- No other edit is of these kinds.
  | addTable table => cases kind
  | removeTable name => cases kind
  | addIndex name i => cases kind
  | removeIndex name index => cases kind
  | renameIndex name source target => cases kind
  | removeView view => cases kind

end Target

/-- The column of a key. -/
def currencyCode : Column where
  name := "Code"
  type := .string
  width := 3
  inKey := true

/-- What the column of the key is to be. -/
def isoCode : Column := { currencyCode with name := "Iso" }

/-- A table with a key of one column. -/
def currency : Table where
  name := "Currency"
  columns :=
    [currencyCode, { name := "Name", type := .string, width := 20 }]

/-- The table alone. -/
def currencies : Snapshot := { tables := [currency] }

/-- A key column is renamed between the drop of the key and its
addition. -/
theorem key_follows_isoCode :
    ∃ before after,
      currencies.table? "currency" = some before ∧
      (currencies.withTable "currency"
        (currency.withColumnReplaced "code" isoCode)).table? "currency" =
          some after ∧
      TableKey.run
        ⟨({ dialect := .ansi } : Target).tableName before, before.key?⟩
        [.dropKey ⟨"", "Currency"⟩,
         .renameColumn ⟨"", "Currency"⟩ "Code" "Iso",
         .addKey ⟨"", "Currency"⟩ ["Iso"]] =
        some ⟨({ dialect := .ansi } : Target).tableName after,
          after.key?⟩ := by
  have wf : currencies.WellFormed := Snapshot.validate_eq_ok_iff.mp
    (toOption_eq_some_iff.mp (by decide +kernel))
  have kind : (SchemaEdit.changeColumn "currency" "code"
    isoCode).ChangesTable := trivial
  have accepted : currencies.apply (.changeColumn "currency" "code" isoCode) =
      .ok (.changeColumn (currency.withColumnReplaced "code" isoCode)
          currencyCode isoCode,
        currencies.withTable "currency"
          (currency.withColumnReplaced "code" isoCode)) := by
    refine Snapshot.apply_changeColumn.mpr
      ⟨currency, rfl, currencyCode, rfl, by decide +kernel, ?_, rfl, rfl⟩
    exact toOption_eq_some_iff.mp (by decide +kernel)
  exact Target.key_follows_edit (t := { dialect := .ansi }) (.inl rfl) wf
    kind accepted (toOption_eq_some_iff.mp (by decide +kernel))

end SchemaEvolution

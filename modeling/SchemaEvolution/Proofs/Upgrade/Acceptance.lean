import SchemaEvolution.Proofs.Schema.Validity
import SchemaEvolution.Proofs.Upgrade.Snapshot

/-!
# `SchemaEvolution.Proofs.Upgrade.Acceptance`: which edits are accepted

`SchemaEdit.Fits` says of each kind of edit when it makes sense in a
snapshot, in terms of what the snapshot holds. An edit is also checked
behind its back, since a table that it changes has to be valid
afterwards. The lemmas of `SchemaEvolution.Proofs.Schema.Validity` show
what that check adds in a well-formed snapshot: the name of a table may
not be blank, an index needs its columns, and nothing else.

* `Snapshot.WellFormed.exists_table_iff`: looking a table up is the same
  as having it.
* `Snapshot.accepts_renameTable` and its siblings: one lemma for each
  edit that checks a table that was changed.
* `Snapshot.accepts_iff_fits`: an edit is accepted when it fits.
-/

set_option autoImplicit false

namespace SchemaEvolution

open SchemaEvolution.Text

/-! ### What a table holds -/

namespace Table

/-- The table has a column of this name, case aside. -/
def HasColumn (t : Table) (name : String) : Prop :=
  ∃ c ∈ t.columns, SameName c.name name

instance (t : Table) (name : String) : Decidable (t.HasColumn name) :=
  inferInstanceAs (Decidable (∃ c ∈ t.columns, SameName c.name name))

/-- The table has an index of exactly this name. -/
def HasIndex (t : Table) (name : String) : Prop :=
  ∃ i ∈ t.indexes, i.name = name

instance (t : Table) (name : String) : Decidable (t.HasIndex name) :=
  inferInstanceAs (Decidable (∃ i ∈ t.indexes, i.name = name))

/-- A column is found exactly if the table has one of that name. -/
theorem exists_column?_iff {t : Table} {name : String} :
    (∃ c, t.column? name = some c) ↔ t.HasColumn name :=
  Option.isSome_iff_exists.symm.trans column?_isSome_iff

/-- None is found exactly if it has none. -/
theorem column?_eq_none_iff_not_hasColumn {t : Table} {name : String} :
    t.column? name = none ↔ ¬ t.HasColumn name := by
  rw [← exists_column?_iff, ← Option.isSome_iff_exists,
    Option.not_isSome_iff_eq_none]

/-- The same for an index, whose name is compared as it is. -/
theorem exists_index?_iff {t : Table} {name : String} :
    (∃ i, t.index? name = some i) ↔ t.HasIndex name := by
  rw [← Option.isSome_iff_exists, index?, List.find?_isSome]
  simp only [beq_iff_eq]
  exact Iff.rfl

/-- No index is found exactly if there is none of that name. -/
theorem index?_eq_none_iff_not_hasIndex {t : Table} {name : String} :
    t.index? name = none ↔ ¬ t.HasIndex name := by
  rw [← exists_index?_iff, ← Option.isSome_iff_exists,
    Option.not_isSome_iff_eq_none]

/-- A name is free for a column when no other column has it. -/
theorem sameName_or_free_iff {t : Table} {column name : String} :
    (SameName name column ∨ t.column? name = none) ↔
      SameName name column ∨
        ∀ c ∈ t.columns, ¬ SameName c.name column →
          ¬ SameName c.name name := by
  rw [column?_eq_none_iff]
  constructor
  · exact .imp_right fun hfree c hc _ => hfree c hc
  · rintro (hsame | hothers)
    · exact .inl hsame
    · -- A column of the new name would be this one, which then keeps it.
      by_cases hsame : SameName name column
      · exact .inl hsame
      · exact .inr fun c hc hname => hothers c hc
          (fun hcolumn => hsame (hname.symm.trans hcolumn)) hname

end Table

/-! ### Edits that make sense -/

/-- The edit makes sense in the snapshot: what it names is there, and
what it adds is not. -/
def SchemaEdit.Fits (s : Snapshot) : SchemaEdit → Prop
  | .addTable t =>
      (∀ u ∈ s.tables, ¬ SameName u.name t.name) ∧ t.validate = .ok ()
  | .removeTable name => ∃ t ∈ s.tables, SameName t.name name
  | .renameTable source target =>
      (∃ t ∈ s.tables, SameName t.name source) ∧
        isBlank target = false ∧
        (SameName source target ∨
          ∀ t ∈ s.tables, ¬ SameName t.name target)
  | .addColumn name c =>
      ∃ t ∈ s.tables, SameName t.name name ∧ ¬ t.HasColumn c.name
  | .changeColumn name column target =>
      ∃ t ∈ s.tables, SameName t.name name ∧ t.HasColumn column ∧
        (SameName target.name column ∨
          ∀ c ∈ t.columns, ¬ SameName c.name column →
            ¬ SameName c.name target.name)
  | .removeColumn name column =>
      ∃ t ∈ s.tables, SameName t.name name ∧ t.HasColumn column ∧
        ∀ i ∈ t.indexes, ¬ i.Covers column
  | .addIndex name i =>
      ∃ t ∈ s.tables, SameName t.name name ∧ ¬ t.HasIndex i.name ∧
        ∀ n ∈ i.columns, t.HasColumn n
  | .removeIndex name index =>
      ∃ t ∈ s.tables, SameName t.name name ∧ t.HasIndex index
  | .renameIndex name source target =>
      ∃ t ∈ s.tables, SameName t.name name ∧ t.HasIndex source ∧
        ¬ t.HasIndex target
  | .changePrimaryKey name columns =>
      ∃ t ∈ s.tables, SameName t.name name ∧
        ∀ n ∈ columns, t.HasColumn n
  | .removeView name => ∃ v ∈ s.views, SameName v name

namespace Snapshot

/-- The edit is accepted. -/
def Accepts (s : Snapshot) (edit : SchemaEdit) : Prop :=
  ∃ change next, s.apply edit = .ok (change, next)

/-! ### Looking up -/

variable {s : Snapshot}

/-- A table that is found is one that the snapshot has. -/
theorem WellFormed.table?_eq_some_iff (wf : s.WellFormed) {name : String}
    {t : Table} :
    s.table? name = some t ↔ t ∈ s.tables ∧ SameName t.name name := by
  constructor
  · intro h
    exact ⟨List.mem_of_find?_eq_some h, (tables_eq_append_of_table? h).1⟩
  · rintro ⟨ht, hname⟩
    cases hfound : s.table? name with
    | none => exact absurd hname (table?_eq_none_iff.mp hfound t ht)
    | some u =>
        have hsame : SameName u.name t.name :=
          (tables_eq_append_of_table? hfound).1.trans hname.symm
        rw [wf.distinct.eq_of_sameName (List.mem_of_find?_eq_some hfound)
          ht hsame]

/-- Looking a table up is the same as having it. What is asked of the
table may be put in other words, as the table is valid. -/
theorem WellFormed.exists_table_iff (wf : s.WellFormed) {name : String}
    {P Q : Table → Prop}
    (h : ∀ t, t.validate = .ok () → (P t ↔ Q t)) :
    (∃ t, s.table? name = some t ∧ P t) ↔
      ∃ t ∈ s.tables, SameName t.name name ∧ Q t := by
  refine exists_congr fun t => ?_
  rw [wf.table?_eq_some_iff, and_assoc]
  exact and_congr_right fun ht => and_congr_right fun _ =>
    h t (wf.valid t ht)

/-- The view is one that the snapshot has. -/
theorem exists_view?_iff {name : String} :
    (∃ v, s.view? name = some v) ↔ ∃ v ∈ s.views, SameName v name := by
  rw [← Option.isSome_iff_exists, view?, List.find?_isSome]
  simp only [decide_eq_true_eq]

/-! ### The edits, one by one -/

/-- A table is added when its name is free and it is valid. -/
theorem accepts_addTable {t : Table} :
    s.Accepts (.addTable t) ↔ (SchemaEdit.addTable t).Fits s := by
  simp [Accepts, apply_addTable, table?_eq_none_iff, SchemaEdit.Fits]

/-- A view is removed when it is there. -/
theorem accepts_removeView {name : String} :
    s.Accepts (.removeView name) ↔ (SchemaEdit.removeView name).Fits s := by
  simp [Accepts, apply_removeView, exists_view?_iff, SchemaEdit.Fits]

namespace WellFormed

variable (wf : s.WellFormed)
include wf

/-- A table is removed when it is there. -/
theorem accepts_removeTable {name : String} :
    s.Accepts (.removeTable name) ↔ (SchemaEdit.removeTable name).Fits s := by
  simp [Accepts, apply_removeTable, wf.table?_eq_some_iff, SchemaEdit.Fits]

/-- A table is renamed when the new name is not blank and is its own or
free. -/
theorem accepts_renameTable {source target : String} :
    s.Accepts (.renameTable source target) ↔
      (SchemaEdit.renameTable source target).Fits s := by
  have h : s.Accepts (.renameTable source target) ↔
      ∃ t, s.table? source = some t ∧
        (SameName source target ∨ s.table? target = none) ∧
        ({ t with name := target } : Table).validate = .ok () := by
    simp [Accepts, apply_renameTable]
  rw [h, wf.exists_table_iff fun t valid =>
    and_congr_right fun _ => Table.validate_renamed_iff valid,
    table?_eq_none_iff]
  -- The new name has nothing to do with the table.
  constructor
  · rintro ⟨t, ht, hsource, hfree, hnamed⟩
    exact ⟨⟨t, ht, hsource⟩, hnamed, hfree⟩
  · rintro ⟨⟨t, ht, hsource⟩, hnamed, hfree⟩
    exact ⟨t, ht, hsource, hfree, hnamed⟩

/-- A column is added when its name is free. -/
theorem accepts_addColumn {name : String} {c : Column} :
    s.Accepts (.addColumn name c) ↔
      (SchemaEdit.addColumn name c).Fits s := by
  have h : s.Accepts (.addColumn name c) ↔
      ∃ t, s.table? name = some t ∧ t.column? c.name = none ∧
        (t.withColumn c).validate = .ok () := by
    simp [Accepts, apply_addColumn]
  rw [h]
  refine wf.exists_table_iff fun t valid => ?_
  rw [← Table.column?_eq_none_iff_not_hasColumn]
  exact and_iff_left_of_imp (Table.validate_withColumn valid)

/-- A column is changed when it is there and its new name is its own or
free. -/
theorem accepts_changeColumn {name column : String} {target : Column} :
    s.Accepts (.changeColumn name column target) ↔
      (SchemaEdit.changeColumn name column target).Fits s := by
  have h : s.Accepts (.changeColumn name column target) ↔
      ∃ t, s.table? name = some t ∧
        ∃ source, t.column? column = some source ∧
          (target.IsNamed column ∨ t.column? target.name = none) ∧
          (t.withColumnReplaced column target).validate = .ok () := by
    simp [Accepts, apply_changeColumn]
  rw [h]
  refine wf.exists_table_iff fun t valid => ?_
  rw [← Table.exists_column?_iff, ← Table.sameName_or_free_iff]
  constructor
  · rintro ⟨source, hsource, hfree, -⟩
    exact ⟨⟨source, hsource⟩, hfree⟩
  · rintro ⟨⟨source, hsource⟩, hfree⟩
    exact ⟨source, hsource, hfree,
      Table.validate_withColumnReplaced valid hsource hfree⟩

/-- A column is removed when it is there and no index covers it. -/
theorem accepts_removeColumn {name column : String} :
    s.Accepts (.removeColumn name column) ↔
      (SchemaEdit.removeColumn name column).Fits s := by
  have h : s.Accepts (.removeColumn name column) ↔
      ∃ t, s.table? name = some t ∧
        (∃ c, t.column? column = some c) ∧
          (t.withoutColumn column).validate = .ok () := by
    simp [Accepts, apply_removeColumn]
  rw [h]
  refine wf.exists_table_iff fun t valid => ?_
  rw [Table.exists_column?_iff, Table.validate_withoutColumn_iff valid]

/-- An index is added when its name is free and its columns are
there. -/
theorem accepts_addIndex {name : String} {i : Index} :
    s.Accepts (.addIndex name i) ↔ (SchemaEdit.addIndex name i).Fits s := by
  have h : s.Accepts (.addIndex name i) ↔
      ∃ t, s.table? name = some t ∧ t.index? i.name = none ∧
        (t.withIndex i).validate = .ok () := by
    simp [Accepts, apply_addIndex]
  rw [h]
  refine wf.exists_table_iff fun t valid => ?_
  rw [Table.index?_eq_none_iff_not_hasIndex,
    Table.validate_withIndex_iff valid]
  rfl

/-- An index is removed when it is there. -/
theorem accepts_removeIndex {name index : String} :
    s.Accepts (.removeIndex name index) ↔
      (SchemaEdit.removeIndex name index).Fits s := by
  have h : s.Accepts (.removeIndex name index) ↔
      ∃ t, s.table? name = some t ∧
        (∃ i, t.index? index = some i) ∧
          (t.withoutIndex index).validate = .ok () := by
    simp [Accepts, apply_removeIndex]
  rw [h]
  refine wf.exists_table_iff fun t valid => ?_
  rw [Table.exists_index?_iff]
  exact and_iff_left (Table.validate_withoutIndex valid index)

/-- An index is renamed when it is there and its new name is free. -/
theorem accepts_renameIndex {name source target : String} :
    s.Accepts (.renameIndex name source target) ↔
      (SchemaEdit.renameIndex name source target).Fits s := by
  have h : s.Accepts (.renameIndex name source target) ↔
      ∃ t, s.table? name = some t ∧
        ∃ i, t.index? source = some i ∧ t.index? target = none ∧
          ((t.withoutIndex source).withIndex
            (i.renamed target)).validate = .ok () := by
    simp [Accepts, apply_renameIndex]
  rw [h]
  refine wf.exists_table_iff fun t valid => ?_
  rw [← Table.exists_index?_iff, ← Table.index?_eq_none_iff_not_hasIndex]
  constructor
  · rintro ⟨i, hi, hfree, -⟩
    exact ⟨⟨i, hi⟩, hfree⟩
  · rintro ⟨⟨i, hi⟩, hfree⟩
    -- The index goes and comes back, and its columns stay all the while.
    refine ⟨i, hi, hfree, (Table.validate_withIndex_iff
      (Table.validate_withoutIndex valid source)).mpr ?_⟩
    exact (Table.validate_eq_ok_iff.mp valid).2.2 i
      (List.mem_of_find?_eq_some hi)

/-- A primary key is changed when its columns are there. -/
theorem accepts_changePrimaryKey {name : String} {columns : List String} :
    s.Accepts (.changePrimaryKey name columns) ↔
      (SchemaEdit.changePrimaryKey name columns).Fits s := by
  have h : s.Accepts (.changePrimaryKey name columns) ↔
      ∃ t, s.table? name = some t ∧
        (∀ n ∈ columns, (t.column? n).isSome) ∧
        (t.withPrimaryKey columns).validate = .ok () := by
    simp [Accepts, apply_changePrimaryKey]
  rw [h]
  refine wf.exists_table_iff fun t valid => ?_
  rw [and_iff_left (Table.validate_withPrimaryKey valid columns)]
  exact forall₂_congr fun n _ => Table.column?_isSome_iff

end WellFormed

/-- In a well-formed snapshot, an edit is accepted when it fits, and only
then. -/
theorem accepts_iff_fits (wf : s.WellFormed) (edit : SchemaEdit) :
    s.Accepts edit ↔ edit.Fits s := by
  cases edit with
  | addTable t => exact accepts_addTable
  | removeTable name => exact wf.accepts_removeTable
  | renameTable source target => exact wf.accepts_renameTable
  | addColumn name c => exact wf.accepts_addColumn
  | changeColumn name column target => exact wf.accepts_changeColumn
  | removeColumn name column => exact wf.accepts_removeColumn
  | addIndex name i => exact wf.accepts_addIndex
  | removeIndex name index => exact wf.accepts_removeIndex
  | renameIndex name source target => exact wf.accepts_renameIndex
  | changePrimaryKey name columns => exact wf.accepts_changePrimaryKey
  | removeView name => exact accepts_removeView

end Snapshot

/-- A table with an index on a column that is in no key. -/
def agreement : Table where
  name := "Agreement"
  columns :=
    [{ name := "Number", type := .string, width := 17, inKey := true },
     { name := "Currency", type := .string, width := 3 },
     { name := "Amount", type := .decimal, width := 13, scale := 2 }]
  indexes := [{ name := "ByCurrency", columns := ["currency"] }]

/-- The table alone. -/
def agreements : Snapshot := { tables := [agreement] }

/-- A column under an index can join the key, in another order and
however it is spelled. It can take a new name, which the index follows.
It cannot go. -/
theorem accepts_currency :
    agreements.Accepts
        (.changePrimaryKey "agreement" ["CURRENCY", "number", "Number"]) ∧
      agreements.Accepts (.changeColumn "AGREEMENT" "currency"
        { name := "Iso", type := .string, width := 3 }) ∧
      ¬ agreements.Accepts (.removeColumn "Agreement" "CURRENCY") := by
  have wf : agreements.WellFormed := Snapshot.validate_eq_ok_iff.mp
    (toOption_eq_some_iff.mp (by decide +kernel))
  refine ⟨(Snapshot.accepts_iff_fits wf _).mpr ?_,
    (Snapshot.accepts_iff_fits wf _).mpr ?_,
    fun h => absurd ((Snapshot.accepts_iff_fits wf _).mp h) ?_⟩
  · show ∃ t ∈ agreements.tables, SameName t.name "agreement" ∧
      ∀ n ∈ ["CURRENCY", "number", "Number"], t.HasColumn n
    decide +kernel
  · show ∃ t ∈ agreements.tables, SameName t.name "AGREEMENT" ∧
      t.HasColumn "currency" ∧ (SameName "Iso" "currency" ∨
        ∀ c ∈ t.columns, ¬ SameName c.name "currency" →
          ¬ SameName c.name "Iso")
    decide +kernel
  · show ¬ ∃ t ∈ agreements.tables, SameName t.name "Agreement" ∧
      t.HasColumn "CURRENCY" ∧
        ∀ i ∈ t.indexes, ¬ i.Covers "CURRENCY"
    decide +kernel

end SchemaEvolution

import SchemaEvolution.Proofs.Ddl.ColumnIndexes
import SchemaEvolution.Proofs.Schema.Validity

/-!
# `SchemaEvolution.Proofs.Upgrade.Undo`: edits and their opposites

What was added is removed, what was renamed gets its name back, and a
column that was changed is changed to what it was. The second edit goes
through whenever the first one did, and finds what the first one left,
because names are told apart by more than case. It leaves the snapshot as
it was, but for one thing: an index that spelled a column otherwise than
the column itself is given the spelling of the column when the name
changes, and keeps that when it changes back.

* `Snapshot.WellFormed.withTable_back`: a table that was exchanged can be
  put back.
* `Table.columns_withColumnReplaced_back`, `indexes_withColumnReplaced_back`:
  what a column that is changed and changed back leaves of its table.
* `Snapshot.removeTable_undoes_addTable` and its siblings: the edits, one by
  one.
* `Snapshot.WellFormed.replay_opposites`: edits in a row are taken back from
  the last one to the first.
* `Snapshot.edits_undone`: all kinds of edits together.
-/

set_option autoImplicit false

namespace SchemaEvolution

open SchemaEvolution.Text

namespace Index

variable {i : Index} {source target : String}

/-- An index whose column gets another name and then a third one has got
the third one, if it did not name a column of the second one before. -/
theorem withColumnRenamed_withColumnRenamed (free : ¬ i.Covers target)
    (last : String) :
    (i.withColumnRenamed source target).withColumnRenamed target last =
      i.withColumnRenamed source last := by
  simp only [withColumnRenamed, List.map_map, mk.injEq, true_and, and_true]
  refine List.map_congr_left fun n hn => ?_
  by_cases hsource : SameName n source
  · simp [hsource, SameName.refl target]
  · -- What the first renaming passes over, the second one passes over too.
    have hother : ¬ SameName n target := fun h => free ⟨n, hn, h⟩
    simp [hsource, hother]

/-- A renaming leaves an index alone that spells the column as the renaming
does. -/
theorem withColumnRenamed_eq_self_iff :
    i.withColumnRenamed source target = i ↔
      ∀ n ∈ i.columns, SameName n source → n = target := by
  have hcolumns : i.withColumnRenamed source target = i ↔
      i.columns.map (fun n => if SameName n source then target else n) =
        i.columns.map id := by
    rw [List.map_id]
    exact ⟨congrArg Index.columns, congrArg fun ns => { i with columns := ns }⟩
  rw [hcolumns, List.map_inj_left]
  refine forall₂_congr fun n _ => ?_
  by_cases hsource : SameName n source <;> simp [hsource, eq_comm]

/-- An index that has followed one spelling of a name has followed every
spelling of it. -/
theorem Follows.respell {j : Index} {last : String}
    (h : i.Follows source target j) (hlast : SameName target last) :
    i.Follows source last j where
  name := h.name
  unique := h.unique
  columns := h.columns.imp fun n m hnm => by
    by_cases hn : SameName n source
    · rw [if_pos hn] at hnm ⊢
      exact SameName.trans hnm hlast
    · rw [if_neg hn] at hnm ⊢
      exact hnm

end Index

namespace Table

variable {t : Table}

/-! ### A column that comes and goes -/

section Added

variable {c : Column}

/-- A column that came in under a free name is found under it. -/
theorem column?_withColumn (free : t.column? c.name = none) :
    (t.withColumn c).column? c.name = some c := by
  show List.find? _ (t.columns ++ [c]) = _
  rw [List.find?_append, ← column?, free]
  simp [Column.IsNamed, SameName.refl]

/-- A column that came in under a free name leaves no trace. -/
theorem withoutColumn_withColumn (free : t.column? c.name = none) :
    (t.withColumn c).withoutColumn c.name = t := by
  have hcolumns : ((t.withColumn c).withoutColumn c.name).columns =
      t.columns ++ [] := by
    refine columns_withoutColumn rfl (fun d hd => ?_) (SameName.refl c.name)
    exact column?_eq_none_iff.mp free d (hd.resolve_right (by simp))
  rw [List.append_nil] at hcolumns
  exact congrArg (fun cs => { t with columns := cs }) hcolumns

end Added

/-! ### A column that changes and changes back -/

section Changed

variable {name : String} {source new : Column}

/-- A column is replaced in its place, and those before it are called
neither as the old one nor as the new one. -/
theorem exists_split_withColumnReplaced
    (found : t.column? name = some source)
    (valid : (t.withColumnReplaced name new).validate = .ok ()) :
    ∃ before after, t.columns = before ++ source :: after ∧
      (t.withColumnReplaced name new).columns = before ++ new :: after ∧
      ∀ c ∈ before, ¬ SameName c.name new.name := by
  obtain ⟨hsource, before, after, hsplit, hbefore⟩ :=
    columns_eq_append_of_column? found
  have hcolumns := columns_withColumnReplaced new hsplit hbefore hsource
  have distinct := distinctNames_of_validate valid
  rw [hcolumns] at distinct
  exact ⟨before, after, hsplit, hcolumns, fun c hc =>
    distinct.not_sameName (.inl hc)⟩

/-- The new column is found under its name. -/
theorem column?_withColumnReplaced (found : t.column? name = some source)
    (valid : (t.withColumnReplaced name new).validate = .ok ()) :
    (t.withColumnReplaced name new).column? new.name = some new := by
  obtain ⟨before, after, -, hcolumns, hbefore⟩ :=
    exists_split_withColumnReplaced found valid
  refine List.find?_eq_some_iff_append.mpr
    ⟨decide_eq_true (SameName.refl new.name), before, after, hcolumns, ?_⟩
  intro c hc
  rw [Bool.not_eq_true', decide_eq_false_iff_not]
  exact hbefore c hc

/-- The old column may come back: its name is that of the new one, or it
has become free. -/
theorem column?_source_withColumnReplaced (valid : t.validate = .ok ())
    (found : t.column? name = some source) (new : Column) :
    SameName source.name new.name ∨
      (t.withColumnReplaced name new).column? source.name = none := by
  obtain ⟨hsource, before, after, hsplit, hbefore⟩ :=
    columns_eq_append_of_column? found
  have distinct := distinctNames_of_validate valid
  rw [hsplit] at distinct
  refine or_iff_not_imp_left.mpr fun hne => ?_
  -- The others had other names before, and the new one has one now.
  rw [column?_eq_none_iff,
    columns_withColumnReplaced new hsplit hbefore hsource]
  intro c hc
  rw [List.mem_append, List.mem_cons] at hc
  rcases hc with hc | rfl | hc
  · exact distinct.not_sameName (.inl hc)
  · exact fun hsame => hne hsame.symm
  · exact distinct.not_sameName (.inr hc)

/-- The old column comes back to its place. -/
theorem columns_withColumnReplaced_back
    (found : t.column? name = some source)
    (valid : (t.withColumnReplaced name new).validate = .ok ()) :
    ((t.withColumnReplaced name new).withColumnReplaced new.name
      source).columns = t.columns := by
  obtain ⟨before, after, hsplit, hcolumns, hbefore⟩ :=
    exists_split_withColumnReplaced found valid
  rw [columns_withColumnReplaced source hcolumns hbefore
    (SameName.refl new.name), hsplit]

/-- The indexes come back with the old column, spelling it as it spells
itself if its name was another one in between. -/
theorem indexes_withColumnReplaced_back (valid : t.validate = .ok ())
    (found : t.column? name = some source)
    (hname : new.IsNamed name ∨ t.column? new.name = none) :
    ((t.withColumnReplaced name new).withColumnReplaced new.name
        source).indexes =
      if new.IsNamed name then t.indexes
      else t.indexes.map fun i => i.withColumnRenamed name source.name := by
  have hsource : SameName source.name name :=
    (columns_eq_append_of_column? found).1
  -- The indexes are rewritten on the way back if they were on the way there.
  have hback : source.IsNamed new.name ↔ new.IsNamed name :=
    ⟨fun h => SameName.trans (SameName.symm h) hsource,
      fun h => hsource.trans (SameName.symm h)⟩
  by_cases hsame : new.IsNamed name
  · simp only [withColumnReplaced, hback, if_pos hsame]
  · have free := hname.resolve_left hsame
    simp only [withColumnReplaced, hback, if_neg hsame, List.map_map]
    refine List.map_congr_left fun i hi => ?_
    exact Index.withColumnRenamed_withColumnRenamed
      (not_covers_of_column?_eq_none valid free hi) source.name

end Changed

end Table

namespace Snapshot

variable {s next : Snapshot} {change : SchemaChange}

/-! ### A table that is put back -/

/-- A table that was exchanged, under its own name or a free one, can be
put back under the name that it has got. -/
theorem WellFormed.withTable_back (h : s.WellFormed) {name : String}
    {t new : Table} (found : s.table? name = some t)
    (hname : SameName new.name name ∨ s.table? new.name = none) :
    (s.withTable name new).withTable new.name t = s := by
  obtain ⟨ht, before, after, hsplit, -, hnew⟩ :=
    tables_eq_append_of_table? found
  have hbefore : ∀ u ∈ before, ¬ SameName u.name new.name := fun u hu =>
    h.not_sameName_of_split hsplit ht hname (.inl hu)
  have hback : ((s.withTable name new).withTable new.name t).tables =
      s.tables := by
    rw [Snapshot.withTable, hnew new, hsplit]
    exact replaceFirst_eq_append t (by simpa using hbefore)
      (decide_eq_true (SameName.refl new.name))
  exact congrArg (Snapshot.mk · s.views) hback

/-- The name of a table is its new one, or becomes free when the table is
renamed. -/
theorem WellFormed.table?_source_withTable (h : s.WellFormed)
    {name : String} {t : Table} (found : s.table? name = some t)
    (new : Table) :
    SameName new.name t.name ∨
      (s.withTable name new).table? t.name = none := by
  obtain ⟨ht, before, after, hsplit, -, hnew⟩ :=
    tables_eq_append_of_table? found
  refine or_iff_not_imp_left.mpr fun hne => ?_
  rw [table?_eq_none_iff, hnew]
  intro u hu
  rw [List.mem_append, List.mem_cons] at hu
  rcases hu with hu | rfl | hu
  · exact h.not_sameName_of_split hsplit ht (.inl ht) (.inl hu)
  · exact hne
  · exact h.not_sameName_of_split hsplit ht (.inl ht) (.inr hu)

/-! ### The edits and their opposites -/

/-- A table that was added can be removed, and the others stay where they
were. -/
theorem removeTable_undoes_addTable {t : Table}
    (accepted : s.apply (.addTable t) = .ok (change, next)) :
    next.apply (.removeTable t.name) = .ok (.removeTable t, s) := by
  obtain ⟨hfree, -, -, rfl⟩ := apply_addTable.mp accepted
  have hothers : ∀ u ∈ s.tables, ¬ SameName u.name t.name :=
    table?_eq_none_iff.mp hfree
  refine apply_removeTable.mpr ⟨t, ?_, rfl, ?_⟩
  · show List.find? _ (s.tables ++ [t]) = _
    rw [List.find?_append, ← table?, hfree]
    simp [SameName.refl]
  · -- Nothing before the new table matches, and it is the last one.
    have herase : (s.tables ++ [t]).eraseP
        (fun u => SameName u.name t.name) = s.tables := by
      rw [List.eraseP_append_right _ (by simpa using hothers),
        List.eraseP_cons_of_pos (by simp [SameName.refl]), List.append_nil]
    exact congrArg (Snapshot.mk · s.views) herase.symm

/-- A table that was renamed can have the name back that it had. -/
theorem renameTable_undoes_renameTable (wf : s.WellFormed)
    {source target : String}
    (accepted : s.apply (.renameTable source target) = .ok (change, next)) :
    ∃ before, s.table? source = some before ∧
      next.apply (.renameTable target before.name) =
        .ok (.renameTable { before with name := target } before, s) := by
  obtain ⟨before, found, hname, -, -, rfl⟩ :=
    apply_renameTable.mp accepted
  let after : Table := { before with name := target }
  have hname' : SameName after.name source ∨ s.table? after.name = none :=
    hname.imp_left SameName.symm
  exact ⟨before, found, apply_renameTable.mpr
    ⟨after, wf.table?_withTable found hname',
      wf.table?_source_withTable found after,
      wf.validate_of_table? found, rfl,
      (wf.withTable_back found hname').symm⟩⟩

/-- A column that was added can be removed. -/
theorem removeColumn_undoes_addColumn (wf : s.WellFormed) {name : String}
    {c : Column}
    (accepted : s.apply (.addColumn name c) = .ok (change, next)) :
    ∃ before, s.table? name = some before ∧
      next.apply (.removeColumn name c.name) =
        .ok (.removeColumn before c, s) := by
  obtain ⟨before, found, hfree, -, -, rfl⟩ := apply_addColumn.mp accepted
  have hsame : SameName (before.withColumn c).name name :=
    (tables_eq_append_of_table? found).1
  have hundone := Table.withoutColumn_withColumn hfree
  refine ⟨before, found, apply_removeColumn.mpr
    ⟨before.withColumn c, wf.table?_withTable_of_name_eq found rfl,
      c, Table.column?_withColumn hfree, ?_, ?_, ?_⟩⟩
  · rw [hundone]
    exact wf.validate_of_table? found
  · rw [hundone]
  · rw [hundone, withTable_withTable found hsame, withTable_self found]

/-- A column that was changed can be changed back, and its table differs at
most in how its indexes spell the column. -/
theorem changeColumn_undoes_changeColumn (wf : s.WellFormed)
    {name column : String} {target : Column}
    (accepted : s.apply (.changeColumn name column target) =
      .ok (change, next)) :
    ∃ before source after,
      s.table? name = some before ∧
      before.column? column = some source ∧
      next.apply (.changeColumn name target.name source) =
        .ok (.changeColumn after target source, s.withTable name after) ∧
      after = { before with indexes := after.indexes } ∧
      after.indexes =
        if target.IsNamed column then before.indexes
        else before.indexes.map fun i =>
          i.withColumnRenamed column source.name := by
  obtain ⟨before, found, source, hcolumn, hname, valid, -, rfl⟩ :=
    apply_changeColumn.mp accepted
  have valid' := wf.validate_of_table? found
  have hsame : SameName (before.withColumnReplaced column target).name
      name := (tables_eq_append_of_table? found).1
  have hcolumn' := Table.column?_withColumnReplaced hcolumn valid
  have hname' :=
    Table.column?_source_withColumnReplaced valid' hcolumn target
  have hcolumns := Table.columns_withColumnReplaced_back hcolumn valid
  let after := (before.withColumnReplaced column target).withColumnReplaced
    target.name source
  refine ⟨before, source, after, found, hcolumn, ?_, ?_,
    Table.indexes_withColumnReplaced_back valid' hcolumn hname⟩
  · exact apply_changeColumn.mpr
      ⟨_, wf.table?_withTable_of_name_eq found rfl, target, hcolumn', hname',
        Table.validate_withColumnReplaced valid hcolumn' hname', rfl,
        (withTable_withTable found hsame after).symm⟩
  · exact congrArg (fun cs => { before with
      columns := cs, indexes := after.indexes }) hcolumns

/-! ### Edits in a row -/

/-- The edit that takes back another one, for the edits that can be taken
back to the letter. -/
def opposite? (s : Snapshot) : SchemaEdit → Option SchemaEdit
  | .addTable t => some (.removeTable t.name)
  | .renameTable source target =>
      (s.table? source).map fun t => .renameTable target t.name
  | .addColumn name c => some (.removeColumn name c.name)
  | _ => none

/-- The edits that take back edits in a row, the last one first. -/
def opposites? (s : Snapshot) :
    List SchemaEdit → Option (List SchemaEdit)
  | [] => some []
  | edit :: rest => do
      let opposite ← s.opposite? edit
      let (_, next) ← (s.apply edit).toOption
      let back ← next.opposites? rest
      return back ++ [opposite]

/-- An edit that has an opposite is undone by it. -/
theorem WellFormed.apply_opposite (wf : s.WellFormed)
    {edit opposite : SchemaEdit}
    (accepted : s.apply edit = .ok (change, next))
    (hopposite : s.opposite? edit = some opposite) :
    ∃ change', next.apply opposite = .ok (change', s) := by
  cases edit with
  | addTable t =>
      obtain rfl := Option.some.inj hopposite
      exact ⟨_, removeTable_undoes_addTable accepted⟩
  | renameTable source target =>
      obtain ⟨before, found, hback⟩ :=
        renameTable_undoes_renameTable wf accepted
      rw [opposite?, found] at hopposite
      obtain rfl := Option.some.inj hopposite
      exact ⟨_, hback⟩
  | addColumn name c =>
      obtain rfl := Option.some.inj hopposite
      obtain ⟨before, -, hback⟩ := removeColumn_undoes_addColumn wf accepted
      exact ⟨_, hback⟩
  | removeTable | changeColumn | removeColumn | addIndex | removeIndex
  | renameIndex | changePrimaryKey | removeView => cases hopposite

/-- Edits in a row that have opposites are taken back by them, the last one
first. -/
theorem WellFormed.replay_opposites (wf : s.WellFormed)
    {edits back : List SchemaEdit} (accepted : s.replay edits = .ok next)
    (hback : s.opposites? edits = some back) :
    next.replay back = .ok s := by
  induction edits generalizing s back with
  | nil =>
      obtain rfl := Option.some.inj hback
      obtain rfl := Except.ok.inj accepted
      rfl
  | cons edit rest ih =>
      obtain ⟨⟨change, mid⟩, hedit, hrest⟩ := bind_eq_ok_iff.mp accepted
      rw [opposites?, hedit] at hback
      simp only [Option.bind_eq_bind, Option.bind_eq_some_iff] at hback
      obtain ⟨opposite, hopposite, made, hmade, back, hrests, hback⟩ := hback
      obtain rfl := Option.some.inj hmade
      obtain rfl := Option.some.inj hback
      obtain ⟨change', hundone⟩ := wf.apply_opposite hedit hopposite
      -- The rest is taken back first, to where the first edit has led.
      rw [replay_append, ih (wf.apply hedit) hrest hrests, ok_bind,
        Snapshot.replay, hundone]
      rfl

/-- Edits are undone by their opposites. When an edit was accepted, so is
its opposite. What it leaves after the addition of a table or a column and
after the renaming of a table is the snapshot that there was. After a column
has changed back, its table has its name, its columns in their places and
its key, and its indexes have their names, their kinds and their columns in
order, up to the case in which they spell the column that changed. All of
it is as before when the name of the column was kept, or when the indexes
spelled it as it spells itself, and only then. -/
theorem edits_undone {s : Snapshot} (wf : s.WellFormed) :
    (∀ (t : Table) (change : SchemaChange) (next : Snapshot),
      s.apply (.addTable t) = .ok (change, next) →
      next.apply (.removeTable t.name) = .ok (.removeTable t, s)) ∧
    (∀ (name : String) (c : Column) (change : SchemaChange)
        (next : Snapshot),
      s.apply (.addColumn name c) = .ok (change, next) →
      ∃ before, s.table? name = some before ∧
        next.apply (.removeColumn name c.name) =
          .ok (.removeColumn before c, s)) ∧
    (∀ (source target : String) (change : SchemaChange) (next : Snapshot),
      s.apply (.renameTable source target) = .ok (change, next) →
      ∃ before, s.table? source = some before ∧
        next.apply (.renameTable target before.name) =
          .ok (.renameTable { before with name := target } before, s)) ∧
    ∀ (name column : String) (target : Column) (change : SchemaChange)
        (next : Snapshot),
      s.apply (.changeColumn name column target) = .ok (change, next) →
      ∃ before source after,
        s.table? name = some before ∧
        before.column? column = some source ∧
        next.apply (.changeColumn name target.name source) =
          .ok (.changeColumn after target source, s.withTable name after) ∧
        after = { before with indexes := after.indexes } ∧
        after.primaryKey = before.primaryKey ∧
        List.Forall₂ (Index.Follows column column) before.indexes
          after.indexes ∧
        (s.withTable name after = s ↔
          target.IsNamed column ∨ ∀ i ∈ before.indexes, ∀ n ∈ i.columns,
            SameName n column → n = source.name) := by
  refine ⟨fun t change next accepted => removeTable_undoes_addTable accepted,
    fun name c change next accepted =>
      removeColumn_undoes_addColumn wf accepted,
    fun source target change next accepted =>
      renameTable_undoes_renameTable wf accepted,
    fun name column target change next accepted => ?_⟩
  obtain ⟨before, source, after, found, hcolumn, hback, hafter, hindexes⟩ :=
    changeColumn_undoes_changeColumn wf accepted
  have hsource : SameName source.name column :=
    (Table.columns_eq_append_of_column? hcolumn).1
  have hkey : after.primaryKey = before.primaryKey := by
    rw [hafter]
    rfl
  -- Nothing but the indexes can tell the two snapshots apart.
  have hsame : s.withTable name after = s ↔
      after.indexes = before.indexes := by
    rw [wf.withTable_eq_self_iff found (by rw [hafter]), hafter]
    exact ⟨congrArg Table.indexes,
      congrArg fun is => { before with indexes := is }⟩
  refine ⟨before, source, after, found, hcolumn, hback, hafter, hkey, ?_, ?_⟩
  · rw [hindexes]
    split
    · exact List.forall₂_same.mpr fun i _ => i.follows_self (SameName.refl _)
    · exact List.forall₂_map_right_iff.mpr <| List.forall₂_same.mpr
        fun i _ => Index.follows_withColumnRenamed.respell hsource
  · rw [hsame, hindexes]
    split
    · rename_i hkept
      exact iff_of_true rfl (.inl hkept)
    · rename_i hnew
      rw [or_iff_right hnew]
      conv_lhs => rw [← List.map_id before.indexes, List.map_map]
      rw [List.map_inj_left]
      exact forall₂_congr fun i _ => Index.withColumnRenamed_eq_self_iff

end Snapshot

/-- The days on which there are no exchange rates. -/
def holiday : Table where
  name := "Holiday"
  columns := [{ name := "Day", type := .date, inKey := true }]

/-- A table and a column come and go, and the exchange rates have their name
back after another one. Only the index that wrote the code of the currency
in capitals writes it otherwise, once that was called otherwise. -/
theorem exchangeRates_undone :
    let origin : Column := { name := "Origin", type := .string, width := 8 }
    let course : Table := { exchangeRate with name := "Course" }
    ({ tables := [exchangeRate, holiday] } : Snapshot).apply
        (.removeTable "Holiday") =
      .ok (.removeTable holiday, exchangeRates) ∧
    (exchangeRates.withTable "rate" (exchangeRate.withColumn origin)).apply
        (.removeColumn "rate" "Origin") =
      .ok (.removeColumn exchangeRate origin, exchangeRates) ∧
    (exchangeRates.withTable "RATE" course).apply
        (.renameTable "Course" "Rate") =
      .ok (.renameTable course exchangeRate, exchangeRates) ∧
    ∃ after,
      (exchangeRates.withTable "rate"
          (exchangeRate.withColumnReplaced "code" isoCode)).apply
          (.changeColumn "rate" "Iso" currencyCode) =
        .ok (.changeColumn after isoCode currencyCode,
          exchangeRates.withTable "rate" after) ∧
      after.columns = exchangeRate.columns ∧
      List.Forall₂ (Index.Follows "code" "code") exchangeRate.indexes
        after.indexes ∧
      exchangeRates.withTable "rate" after ≠ exchangeRates := by
  intro origin course
  have wf : exchangeRates.WellFormed := Snapshot.validate_eq_ok_iff.mp
    (toOption_eq_some_iff.mp (by decide +kernel))
  obtain ⟨hadd, hcolumn, hrename, hchange⟩ := Snapshot.edits_undone wf
  obtain ⟨widened, hwidened, hremoved⟩ := hcolumn "rate" origin _ _
    (Snapshot.apply_addColumn.mpr
      ⟨exchangeRate, rfl, by decide +kernel,
        toOption_eq_some_iff.mp (by decide +kernel), rfl, rfl⟩)
  obtain ⟨named, hnamed, hrenamed⟩ := hrename "RATE" "Course" _ _
    (Snapshot.apply_renameTable.mpr
      ⟨exchangeRate, rfl, .inr rfl,
        toOption_eq_some_iff.mp (by decide +kernel), rfl, rfl⟩)
  obtain ⟨recoded, code, after, hrecoded, hcode, hback, hafter, -, hfollows,
      hsame⟩ := hchange "rate" "code" isoCode _ _
    (Snapshot.apply_changeColumn.mpr
      ⟨exchangeRate, rfl, currencyCode, rfl, by decide +kernel,
        toOption_eq_some_iff.mp (by decide +kernel), rfl, rfl⟩)
  obtain rfl := Option.some.inj hwidened
  obtain rfl := Option.some.inj hnamed
  obtain rfl := Option.some.inj hrecoded
  obtain rfl := Option.some.inj hcode
  refine ⟨hadd holiday _ _ (Snapshot.apply_addTable.mpr
    ⟨rfl, toOption_eq_some_iff.mp (by decide +kernel), rfl, rfl⟩),
    hremoved, hrenamed, after, hback, ?_, hfollows,
    mt hsame.mp (by decide +kernel)⟩
  rw [hafter]

end SchemaEvolution

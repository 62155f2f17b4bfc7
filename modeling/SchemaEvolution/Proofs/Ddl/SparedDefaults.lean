import SchemaEvolution.Proofs.Ddl.ColumnState
import SchemaEvolution.Proofs.Ddl.IdleDefaults
import SchemaEvolution.Proofs.Ddl.KeyLifecycle

/-!
# `SchemaEvolution.Proofs.Ddl.SparedDefaults`: sequences that lose their place

Where a table is created, the defaults of its autonumbered columns are idle.
Where a column is altered they are not, because the alteration looks at the
defaults alone, and NuoDB fills a new column with its default in the same
way. The lemmas here say exactly when what is written for a column is what
is written for it without its idle default, and which statements take the
place of its sequence when it is not.

* `Ansi.alterations_eq_iff`, `NuoDb.alterations_eq_iff`: when the dialects do
  about two columns what they do about them without their defaults.
* `Target.addColumn_withoutDefault_iff`, `changeColumn_withoutDefault_iff`:
  when nothing changes where a column is added or changed.
* `Target.spares_addColumn_iff`, `spares_changeColumn_iff`: when no statement
  takes the place of a sequence.
* `Target.idle_defaults_spared`: all of this for two tables at a time.
-/

set_option autoImplicit false

namespace SchemaEvolution

/-! ### Statements that take the place of a sequence -/

/-- Whether an alteration gives a column another default or none. -/
def ColumnAlteration.changesDefault : ColumnAlteration → Bool
  | .setDefault _ | .dropDefault | .notNullDefault _ => true
  | .setNotNull | .dropNotNull | .notNull | .null => false

/-- Whether a statement takes the place of the sequence behind a column: it
changes the default, or the values that are there. Of the statement of a
vendor no more is known than its text, so it may do so. -/
def Ddl.overridesSequence : Ddl → Bool
  | .alterColumn _ _ alteration => alteration.changesDefault
  | .fillColumn _ _ _ | .vendor _ => true
  | _ => false

/-! ### What the dialects do about defaults -/

/-- The two dialects are told apart by their names. -/
theorem Dialect.ansi_ne_nuoDb : Dialect.ansi ≠ Dialect.nuoDb := by
  intro h
  have hname : Dialect.ansi.name = Dialect.nuoDb.name := by rw [h]
  exact absurd hname (by decide)

section Alterations

variable {source target : Column}
variable {default? : Except RenderError (Option String)}

/-- Of two columns with the same default standard SQL looks only at the
nullability. -/
theorem Ansi.alterations_of_default?_eq
    (hsame : source.default? = target.default?) :
    Ansi.alterations source target default? =
      .ok (if source.nullable = target.nullable then []
        else if target.nullable then [.dropNotNull] else [.setNotNull]) := by
  rw [Ansi.alterations, if_pos hsame]
  rfl

/-- What standard SQL does about two columns does not hang on their defaults
when these are the same. -/
theorem Ansi.alterations_eq_iff :
    Ansi.alterations source target default? =
        Ansi.alterations source.withoutDefault target.withoutDefault
          (.ok none) ↔
      source.default? = target.default? := by
  have hbare : Ansi.alterations source.withoutDefault target.withoutDefault
      (.ok none) = _ := Ansi.alterations_of_default?_eq rfl
  rw [hbare]
  constructor
  · intro h
    obtain ⟨ofDefault, hdefault, hall⟩ := Ansi.alterations_eq_ok h
    -- Nothing stands before the change of the nullability, so nothing was
    -- done about the default.
    have hnone : ofDefault = [] := List.append_left_eq_self.mp hall.symm
    rcases hdefault with ⟨hsame, -⟩ | ⟨-, value, -, rfl⟩ | ⟨-, -, rfl⟩
    · exact hsame
    · cases hnone
    · cases hnone
  · exact Ansi.alterations_of_default?_eq

/-- Standard SQL changes the default of a column when it is another one. -/
theorem Ansi.forall_not_changesDefault_iff {as : List ColumnAlteration}
    (h : Ansi.alterations source target default? = .ok as) :
    (∀ a ∈ as, a.changesDefault = false) ↔
      source.default? = target.default? := by
  obtain ⟨ofDefault, hdefault, rfl⟩ := Ansi.alterations_eq_ok h
  have hnull : ∀ a ∈ (if source.nullable = target.nullable then []
      else if target.nullable then [.dropNotNull] else [.setNotNull] :
        List ColumnAlteration), a.changesDefault = false := by
    cases source.nullable <;> cases target.nullable <;> decide
  rw [List.forall_mem_append, and_iff_left hnull]
  rcases hdefault with
    ⟨hsame, rfl⟩ | ⟨hchanges, value, -, rfl⟩ | ⟨hchanges, -, rfl⟩
  · exact iff_of_true (by simp) hsame
  · exact iff_of_false (by simp [ColumnAlteration.changesDefault]) hchanges
  · exact iff_of_false (by simp [ColumnAlteration.changesDefault]) hchanges

/-- NuoDB sets a default that is new, or drops one that is no more, and
settles the nullability beside it. -/
theorem NuoDb.alterations_of_default?_ne {value? : Option String}
    (hchanges : source.default? ≠ target.default?) :
    NuoDb.alterations source target (.ok value?) = .ok (match value? with
      | some value =>
          .notNullDefault value :: (if target.nullable then [.null] else [])
      | none =>
          [.dropDefault, if target.nullable then .null else .notNull]) := by
  cases value? with
  | none | some value => simp [NuoDb.alterations, hchanges]

/-- Of two columns with the same default NuoDB looks at the nullability, and
at the default by way of which a column becomes mandatory. -/
theorem NuoDb.alterations_of_default?_eq {value? : Option String}
    (hsame : source.default? = target.default?) :
    NuoDb.alterations source target (.ok value?) =
      .ok (if source.nullable = target.nullable then []
        else if target.nullable then [.null]
        else match value? with
          | some value => [.notNullDefault value]
          | none => [.notNullDefault "0", .dropDefault]) := by
  cases value? with
  | none | some value =>
      cases hs : source.nullable <;> cases ht : target.nullable <;>
        simp [NuoDb.alterations, hsame, hs, ht]

/-- What NuoDB does about two columns does not hang on their defaults when
these are the same and, if there is one, it can be written and the column
does not become mandatory. -/
theorem NuoDb.alterations_eq_iff
    (hnone : default? = .ok none ↔ target.default? = none) :
    NuoDb.alterations source target default? =
        NuoDb.alterations source.withoutDefault target.withoutDefault
          (.ok none) ↔
      source.default? = target.default? ∧
        (target.default? ≠ none → (∃ value?, default? = .ok value?) ∧
          (source.nullable = true → target.nullable = true)) := by
  have hbare : NuoDb.alterations source.withoutDefault
      target.withoutDefault (.ok none) =
        .ok (if source.nullable = target.nullable then []
          else if target.nullable then [.null]
          else [.notNullDefault "0", .dropDefault]) :=
    NuoDb.alterations_of_default?_eq rfl
  rw [hbare]
  cases default? with
  | error e =>
      -- A default that cannot be written is there.
      have hsome : target.default? ≠ none := fun h => by
        cases hnone.mpr h
      refine iff_of_false (fun h => by cases h) fun h => ?_
      obtain ⟨value?, hvalue⟩ := (h.2 hsome).1
      cases hvalue
  | ok value? =>
      by_cases hsame : source.default? = target.default?
      · rw [NuoDb.alterations_of_default?_eq hsame, and_iff_right hsame]
        cases value? with
        | none => exact iff_of_true rfl fun h => absurd (hnone.mp rfl) h
        | some value =>
            have hsome : target.default? ≠ none := fun h => by
              cases hnone.mpr h
            cases source.nullable <;> cases target.nullable <;> simp [hsome]
      · -- The default changes, for which the other has no statement.
        refine iff_of_false ?_ fun h => hsame h.1
        rw [NuoDb.alterations_of_default?_ne hsame]
        cases value? <;> cases source.nullable <;> cases target.nullable <;>
          simp

/-- NuoDB changes the default of a column when it is another one, and when
the column becomes mandatory. -/
theorem NuoDb.forall_not_changesDefault_iff {as : List ColumnAlteration}
    (h : NuoDb.alterations source target default? = .ok as) :
    (∀ a ∈ as, a.changesDefault = false) ↔
      source.default? = target.default? ∧
        (source.nullable = true → target.nullable = true) := by
  obtain ⟨value?, rfl, -⟩ := bind_eq_ok_iff.mp h
  by_cases hsame : source.default? = target.default?
  · rw [NuoDb.alterations_of_default?_eq hsame] at h
    cases h
    rw [and_iff_right hsame]
    cases value? <;> cases source.nullable <;> cases target.nullable <;>
      simp [ColumnAlteration.changesDefault]
  · rw [NuoDb.alterations_of_default?_ne hsame] at h
    cases h
    refine iff_of_false ?_ fun h => hsame h.1
    cases value? <;> simp [ColumnAlteration.changesDefault]

end Alterations

/-- NuoDB leaves the rows alone unless the new column may be null and has a
default. -/
theorem NuoDb.columnAdded_eq_nil_iff {table : ObjectName} {c : Column}
    {default? : Except RenderError (Option String)} :
    NuoDb.columnAdded table c default? = .ok [] ↔
      (c.nullable = true → default? = .ok none) := by
  rw [NuoDb.columnAdded]
  cases c.nullable with
  | false => exact iff_of_true rfl (by simp)
  | true =>
      cases default? with
      | error e => simp
      | ok value? => cases value? <;> simp

namespace Dialect

variable {d : Dialect} (dialect : d = .ansi ∨ d = .nuoDb)

include dialect

/-- What a dialect creates a sequence with leaves the defaults of the table
alone. -/
theorem spares_createSequence {sequence : ObjectName} {start : Int64} :
    ∀ st ∈ d.createSequence sequence start,
      st.overridesSequence = false := by
  intro st hst
  rcases dialect with rfl | rfl
  · rw [List.mem_singleton.mp hst]
    rfl
  · rcases List.mem_cons.mp hst with rfl | hst
    · rfl
    · rw [List.mem_singleton.mp hst]
      rfl

/-- Neither dialect drops an index by a statement about a default. -/
theorem spares_dropIndex {table : ObjectName} {i : Index} :
    ∀ st ∈ d.dropIndex table i, st.overridesSequence = false := by
  intro st hst
  rcases dialect with rfl | rfl
  · rw [List.mem_singleton.mp hst]
    rfl
  · rw [List.mem_singleton.mp hst]
    rfl

/-- What is done about a new column fills it at most. -/
theorem columnAdded_eq_ok {table : ObjectName} {c : Column}
    {default? : Except RenderError (Option String)} {added : List Ddl}
    (h : d.columnAdded table c default? = .ok added) :
    added = [] ∨ ∃ value, added = [.fillColumn table c.name value] := by
  rcases dialect with rfl | rfl
  · cases h
    exact .inl rfl
  · exact NuoDb.columnAdded_eq_ok h

end Dialect

namespace Target

variable {t : Target}

/-- What is written about the key of a table takes the place of no
sequence. -/
theorem spares_dropKey (p : Bool) (table : Table) :
    ∀ st ∈ (if p then [t.dropKey table] else []),
      st.overridesSequence = false := by
  cases p <;> simp [dropKey, Ddl.overridesSequence]

/-- Neither does a key that is added again. -/
theorem spares_addKey (p : Bool) (table : Table) (key : List String) :
    ∀ st ∈ (if p then t.addKey table key else []),
      st.overridesSequence = false := by
  rw [addKey]
  cases p <;> cases key.isEmpty <;> simp [Ddl.overridesSequence]

/-- There is nothing to write for a default exactly when there is none. -/
theorem defaultSql_eq_ok_none_iff {table : Table} {c : Column} :
    t.defaultSql table c = .ok none ↔ c.default? = none := by
  constructor
  · intro h
    exact (defaultSql_eq_none_iff h).mp rfl
  · intro h
    rw [defaultSql, defaultLiteral_of_none h]
    rfl

/-- A column without a default has nothing written for one, in any table. -/
theorem defaultSql_withoutDefault (table : Table) (c : Column) :
    t.defaultSql table c.withoutDefault = .ok none :=
  defaultSql_eq_ok_none_iff.mpr rfl

/-! ### Adding a column -/

/-- The addition of a column with a default passes for one without it:
NuoDB fills a column that may be null with its default. -/
def SparesAdded (t : Target) (c : Column) : Prop :=
  t.dialect = .nuoDb → c.nullable = true → c.default? = none

/-- Adds a column to a table, but does nothing about the rows that are
there. -/
def placeColumn (t : Target) (table : Table) (c : Column) :
    Except RenderError (List Ddl) := do
  table.validate
  let definition ← t.columnDefinition table c
  return (if c.inKey && table.primaryKey.any fun n => !c.IsNamed n then
      [t.dropKey table] else []) ++
    t.createSequences table [c] ++
    [.addColumn (t.tableName table) definition] ++
    (if c.inKey then t.addKey table table.primaryKey else [])

/-- The dialect looks after the rows last. -/
theorem addColumn_eq (table : Table) (c : Column) :
    t.addColumn table c = t.placeColumn table c >>= fun placed => do
      let added ← t.dialect.columnAdded (t.tableName table) c
        (t.defaultSql table c)
      return placed ++ added := by
  rw [addColumn, placeColumn]
  cases table.validate with
  | error e => rfl
  | ok _ => cases t.columnDefinition table c <;> rfl

/-- An autonumbered column is placed as if it had no default. -/
theorem placeColumn_withoutDefault
    (names : t.dialect.NamesWithoutDefaults) (a : Table) {c : Column}
    (hc : c.autoNumbered = true) :
    t.placeColumn a.withoutIdleDefaults c.withoutDefault =
      t.placeColumn a c := by
  have hsequences : t.createSequences a.withoutIdleDefaults
      [c.withoutIdleDefault] = t.createSequences a [c] :=
    createSequences_withoutIdleDefaults names a [c]
  rw [← Column.withoutIdleDefault_of_autoNumbered hc, placeColumn,
    placeColumn, Table.validate_withoutIdleDefaults,
    columnDefinition_withoutIdleDefaults names, hsequences,
    Table.primaryKey_withoutIdleDefaults, dropKey, addKey,
    tableName_withoutIdleDefaults names]
  rfl

/-- A column can be placed as soon as its type can be written, since no
default is asked for where a sequence gives the numbers. -/
theorem placeColumn_isOk {table : Table} (valid : table.validate = .ok ())
    {c : Column} (hc : c.autoNumbered = true) {type : String}
    (htype : t.columnType c = .ok type) :
    ∃ placed, t.placeColumn table c = .ok placed := by
  have hdefinition : t.columnDefinition table c = .ok
      { name := c.name, type := type, default? := none,
        notNull := !c.nullable,
        numbering? := some (t.numberingClause table c) } := by
    rw [columnDefinition, htype, hc]
    rfl
  rw [placeColumn, valid, hdefinition]
  exact ⟨_, rfl⟩

section

variable (dialect : t.dialect = .ansi ∨ t.dialect = .nuoDb)

include dialect

/-- Where a column is placed, nothing takes the place of a sequence. -/
theorem spares_placeColumn {table : Table} {c : Column} {placed : List Ddl}
    (h : t.placeColumn table c = .ok placed) :
    ∀ st ∈ placed, st.overridesSequence = false := by
  obtain ⟨-, -, h⟩ := bind_eq_ok_iff.mp h
  obtain ⟨definition, -, h⟩ := bind_eq_ok_iff.mp h
  cases h
  have hsequences : ∀ st ∈ t.createSequences table [c],
      st.overridesSequence = false := by
    intro st hst
    obtain ⟨d, -, hst⟩ := List.mem_flatMap.mp hst
    exact Dialect.spares_createSequence dialect st hst
  simp only [List.forall_mem_append, List.forall_mem_singleton]
  exact ⟨⟨⟨spares_dropKey _ table, hsequences⟩, rfl⟩,
    spares_addKey _ table _⟩

/-- After a column has been placed, nothing is left to do exactly if its
addition is spared. -/
theorem columnAdded_eq_nil_iff (table : Table) (c : Column) :
    t.dialect.columnAdded (t.tableName table) c (t.defaultSql table c) =
      .ok [] ↔ t.SparesAdded c := by
  have hnone : t.defaultSql table c = .ok none ↔ c.default? = none :=
    defaultSql_eq_ok_none_iff
  rw [SparesAdded, ← hnone]
  rcases dialect with h | h
  · rw [h]
    exact iff_of_true rfl fun h => absurd h Dialect.ansi_ne_nuoDb
  · rw [h]
    exact NuoDb.columnAdded_eq_nil_iff.trans (by simp)

/-- A column is added as if it had no idle default, if that is spared. -/
theorem addColumn_withoutDefault {c : Column}
    (hc : c.autoNumbered = true) (a : Table) (spares : t.SparesAdded c) :
    t.addColumn a.withoutIdleDefaults c.withoutDefault =
      t.addColumn a c := by
  rw [addColumn_eq, addColumn_eq, placeColumn_withoutDefault
      (Dialect.namesWithoutDefaults dialect) a hc,
    (columnAdded_eq_nil_iff dialect a c).mpr spares,
    (columnAdded_eq_nil_iff dialect a.withoutIdleDefaults
      c.withoutDefault).mpr fun _ _ => rfl]

/-- Otherwise it is not, as long as it can be added at all. -/
theorem addColumn_withoutDefault_iff {c : Column}
    (hc : c.autoNumbered = true) {a : Table} (valid : a.validate = .ok ())
    {type : String} (htype : t.columnType c = .ok type) :
    t.addColumn a.withoutIdleDefaults c.withoutDefault =
      t.addColumn a c ↔ t.SparesAdded c := by
  refine ⟨fun h => ?_, addColumn_withoutDefault dialect hc a⟩
  -- The column is placed in both cases, so the rows make the difference.
  obtain ⟨placed, hplaced⟩ := placeColumn_isOk valid hc htype
  rw [addColumn_eq, addColumn_eq, placeColumn_withoutDefault
      (Dialect.namesWithoutDefaults dialect) a hc,
    hplaced, ok_bind, ok_bind, bind_pure_inj fun _ _ => List.append_cancel_left,
    (columnAdded_eq_nil_iff dialect a.withoutIdleDefaults
      c.withoutDefault).mpr fun _ _ => rfl] at h
  exact (columnAdded_eq_nil_iff dialect a c).mp h.symm

/-- What is written for a new column takes the place of its sequence
unless its default is spared. -/
theorem spares_addColumn_iff {table : Table} {c : Column}
    {statements : List Ddl} (h : t.addColumn table c = .ok statements) :
    (∀ st ∈ statements, st.overridesSequence = false) ↔
      t.SparesAdded c := by
  rw [addColumn_eq] at h
  obtain ⟨placed, hplaced, h⟩ := bind_eq_ok_iff.mp h
  obtain ⟨added, hadded, h⟩ := bind_eq_ok_iff.mp h
  cases h
  rw [List.forall_mem_append,
    and_iff_right (spares_placeColumn dialect hplaced),
    ← columnAdded_eq_nil_iff dialect table c, hadded]
  rcases Dialect.columnAdded_eq_ok dialect hadded with rfl | ⟨value, rfl⟩
  · simp
  · simp [Ddl.overridesSequence]

end

/-! ### Changing a column -/

/-- The change of a column with a default passes for one without it. The
default has to be the one that it was. NuoDB looks at it nonetheless: it has
to be one that can be written, and the column may not become mandatory. -/
def SparesChanged (t : Target) (table : Table) (source target : Column) :
    Prop :=
  source.default? = target.default? ∧
    (t.dialect = .nuoDb → target.default? ≠ none →
      (∃ value?, t.defaultSql table target = .ok value?) ∧
        (source.nullable = true → target.nullable = true))

/-- What is written before and after the change of the default and the
nullability of a column that stays where it stands. -/
def columnFrame (t : Target) (table : Table) (source target : Column) :
    Except RenderError (List Ddl × List Ddl) := do
  table.validate
  let _ ← t.columnType target
  let retyped ←
    if source.SameType target then pure []
    else do
      let statement ← t.alterType table target
      pure [statement]
  let indexes := table.indexesOn [source.name, target.name]
  let key := table.primaryKey
  let otherKeyColumn := key.any fun n => !target.IsNamed n
  return (indexes.flatMap (t.dropIndex table) ++
      (if source.inKey || (target.inKey && otherKeyColumn) then
        [t.dropKey table] else []) ++
      (if source.name = target.name then []
        else [t.renameColumn table source.name target.name]) ++ retyped,
    (if source.inKey || target.inKey then t.addKey table key else []) ++
      indexes.map (t.createIndex table))

/-- Of what is written for a column that stays where it stands, only what
lies between the two parts of the frame is about its default. -/
theorem changeColumn_eq {source target : Column}
    (stays : source.autoNumbered = target.autoNumbered) (table : Table) :
    t.changeColumn table source target =
      t.columnFrame table source target >>= fun frame => do
        let altered ← t.alterNullability table source target
        return frame.1 ++ altered ++ frame.2 := by
  rw [changeColumn, columnFrame, if_pos stays, changeInPlace]
  cases table.validate with
  | error e => rfl
  | ok _ =>
      cases t.columnType target with
      | error e => rfl
      | ok type =>
          -- The type is written only if it changes.
          by_cases htype : source.SameType target
          · rw [if_pos htype, if_pos htype]
            cases t.alterNullability table source target <;>
              simp [List.append_assoc]
          · rw [if_neg htype, if_neg htype]
            cases t.alterType table target <;>
              cases t.alterNullability table source target <;>
              simp [List.append_assoc]

/-- The frame of a change hangs on no default, neither of the column nor of
its table. -/
theorem columnFrame_withoutDefault
    (names : t.dialect.NamesWithoutDefaults) (a : Table)
    (source target : Column) :
    t.columnFrame a.withoutIdleDefaults source.withoutDefault
        target.withoutDefault =
      t.columnFrame a source target := by
  have hname := tableName_withoutIdleDefaults names a
  rw [columnFrame, columnFrame, Table.validate_withoutIdleDefaults,
    Table.primaryKey_withoutIdleDefaults]
  unfold alterType dropIndex dropKey renameColumn addKey createIndex
  rw [hname]
  rfl

/-- A frame can be written as soon as the type can, which may be needed for
the target. -/
theorem columnFrame_isOk {table : Table} (valid : table.validate = .ok ())
    {target : Column} {type : String} (htype : t.columnType target = .ok type)
    (source : Column) :
    ∃ frame, t.columnFrame table source target = .ok frame := by
  rw [columnFrame, valid, alterType, htype]
  by_cases hsame : source.SameType target
  · rw [if_pos hsame]
    exact ⟨_, rfl⟩
  · rw [if_neg hsame]
    exact ⟨_, rfl⟩

section

variable (dialect : t.dialect = .ansi ∨ t.dialect = .nuoDb)

include dialect

/-- Around the change of a default, nothing takes the place of a
sequence. -/
theorem spares_columnFrame {table : Table} {source target : Column}
    {frame : List Ddl × List Ddl}
    (h : t.columnFrame table source target = .ok frame) :
    (∀ st ∈ frame.1, st.overridesSequence = false) ∧
      ∀ st ∈ frame.2, st.overridesSequence = false := by
  have hdropped : ∀ indexes : List Index,
      ∀ st ∈ indexes.flatMap (t.dropIndex table),
        st.overridesSequence = false := by
    intro indexes st hst
    obtain ⟨i, -, hst⟩ := List.mem_flatMap.mp hst
    exact Dialect.spares_dropIndex dialect st hst
  have hcreated : ∀ indexes : List Index,
      ∀ st ∈ indexes.map (t.createIndex table),
        st.overridesSequence = false := by
    intro indexes st hst
    obtain ⟨i, -, rfl⟩ := List.mem_map.mp hst
    rfl
  have hrenamed : ∀ st ∈ (if source.name = target.name then []
      else [t.renameColumn table source.name target.name]),
      st.overridesSequence = false := by
    split <;> simp [renameColumn, Ddl.overridesSequence]
  obtain ⟨-, -, h⟩ := bind_eq_ok_iff.mp h
  obtain ⟨-, -, h⟩ := bind_eq_ok_iff.mp h
  -- The type is written only if it changes.
  by_cases htype : source.SameType target
  · simp only [if_pos htype] at h
    cases h
    simp only [List.forall_mem_append]
    exact ⟨⟨⟨⟨hdropped _, spares_dropKey _ table⟩, hrenamed⟩, by simp⟩,
      spares_addKey _ table _, hcreated _⟩
  · simp only [if_neg htype] at h
    obtain ⟨statement, hstatement, h⟩ := bind_eq_ok_iff.mp h
    obtain ⟨type, -, hstatement⟩ := bind_eq_ok_iff.mp hstatement
    cases hstatement
    cases h
    simp only [List.forall_mem_append, List.forall_mem_singleton]
    exact ⟨⟨⟨⟨hdropped _, spares_dropKey _ table⟩, hrenamed⟩, rfl⟩,
      spares_addKey _ table _, hcreated _⟩

/-- The default and the nullability of a column change as if the column had
no idle default, if that is spared, and only then. -/
theorem alterNullability_withoutDefault_iff (a : Table)
    (source target : Column) :
    t.alterNullability a.withoutIdleDefaults source.withoutDefault
        target.withoutDefault = t.alterNullability a source target ↔
      t.SparesChanged a source target := by
  have hname := tableName_withoutIdleDefaults
    (Dialect.namesWithoutDefaults dialect) a
  have hinj : ∀ as bs : List ColumnAlteration,
      as.map (Ddl.alterColumn (t.tableName a) target.name) =
        bs.map (.alterColumn (t.tableName a) target.name) → as = bs :=
    fun _ _ h => List.map_injective_iff.mpr
      (fun _ _ h => (Ddl.alterColumn.inj h).2.2) h
  rw [alterNullability, alterNullability, hname, defaultSql_withoutDefault]
  -- The statements tell the alterations apart, so these can be compared.
  refine (bind_pure_inj hinj).trans ?_
  rw [eq_comm, SparesChanged]
  rcases dialect with h | h
  · rw [h]
    exact Ansi.alterations_eq_iff.trans
      (iff_self_and.mpr fun _ h => absurd h Dialect.ansi_ne_nuoDb)
  · rw [h]
    exact (NuoDb.alterations_eq_iff defaultSql_eq_ok_none_iff).trans
      (by simp)

/-- What is written for the default and the nullability of a column takes
the place of its sequence if the default is another one, and in NuoDB also
if the column becomes mandatory. -/
theorem spares_alterNullability_iff {table : Table} {source target : Column}
    {altered : List Ddl}
    (h : t.alterNullability table source target = .ok altered) :
    (∀ st ∈ altered, st.overridesSequence = false) ↔
      source.default? = target.default? ∧
        (t.dialect = .nuoDb →
          source.nullable = true → target.nullable = true) := by
  obtain ⟨as, has, h⟩ := bind_eq_ok_iff.mp h
  cases h
  rw [List.forall_mem_map]
  rcases dialect with h | h
  · rw [h] at has ⊢
    exact (Ansi.forall_not_changesDefault_iff has).trans
      (iff_self_and.mpr fun _ h => absurd h Dialect.ansi_ne_nuoDb)
  · rw [h] at has ⊢
    exact (NuoDb.forall_not_changesDefault_iff has).trans (by simp)

/-- A column changes as if it had no idle default, if that is spared. -/
theorem changeColumn_withoutDefault {source target : Column}
    (stays : source.autoNumbered = target.autoNumbered) (a : Table)
    (spares : t.SparesChanged a source target) :
    t.changeColumn a.withoutIdleDefaults source.withoutDefault
        target.withoutDefault =
      t.changeColumn a source target := by
  have hstays : source.withoutDefault.autoNumbered =
    target.withoutDefault.autoNumbered := stays
  rw [changeColumn_eq hstays, changeColumn_eq stays,
    columnFrame_withoutDefault (Dialect.namesWithoutDefaults dialect),
    (alterNullability_withoutDefault_iff dialect a source target).mpr spares]

/-- Otherwise it does not, as long as it can change at all. -/
theorem changeColumn_withoutDefault_iff {source target : Column}
    (stays : source.autoNumbered = target.autoNumbered) {a : Table}
    (valid : a.validate = .ok ()) {type : String}
    (htype : t.columnType target = .ok type) :
    t.changeColumn a.withoutIdleDefaults source.withoutDefault
        target.withoutDefault =
      t.changeColumn a source target ↔ t.SparesChanged a source target := by
  refine ⟨fun h => ?_, changeColumn_withoutDefault dialect stays a⟩
  have hstays : source.withoutDefault.autoNumbered =
    target.withoutDefault.autoNumbered := stays
  -- The frames are there and are the same, so what they enclose makes the
  -- difference.
  obtain ⟨frame, hframe⟩ := columnFrame_isOk valid htype source
  have hinj : ∀ as bs : List Ddl,
      frame.1 ++ as ++ frame.2 = frame.1 ++ bs ++ frame.2 → as = bs :=
    fun _ _ h => List.append_cancel_left (List.append_cancel_right h)
  rw [changeColumn_eq hstays, changeColumn_eq stays,
    columnFrame_withoutDefault (Dialect.namesWithoutDefaults dialect),
    hframe, ok_bind, ok_bind, bind_pure_inj hinj] at h
  exact (alterNullability_withoutDefault_iff dialect a source target).mp h

/-- What is written for a column that changes takes the place of its
sequence if the default is another one, and in NuoDB also if the column
becomes mandatory. -/
theorem spares_changeColumn_iff {table : Table} {source target : Column}
    (stays : source.autoNumbered = target.autoNumbered)
    {statements : List Ddl}
    (h : t.changeColumn table source target = .ok statements) :
    (∀ st ∈ statements, st.overridesSequence = false) ↔
      source.default? = target.default? ∧
        (t.dialect = .nuoDb →
          source.nullable = true → target.nullable = true) := by
  rw [changeColumn_eq stays] at h
  obtain ⟨frame, hframe, h⟩ := bind_eq_ok_iff.mp h
  obtain ⟨altered, haltered, h⟩ := bind_eq_ok_iff.mp h
  cases h
  obtain ⟨hbefore, hafter⟩ := spares_columnFrame dialect hframe
  rw [List.forall_mem_append, List.forall_mem_append, and_iff_left hafter,
    and_iff_right hbefore]
  exact spares_alterNullability_iff dialect haltered

end

/-- Two tables that differ in idle defaults at most are created by the same
statements. An autonumbered column is added to them by the same statements
when its default is spared, and one that stays autonumbered is changed by
the same statements when both of its defaults are. When they are not, it
makes a difference whether the column has them, as soon as its type can be
written. The last parts of the second and the third assertion say when a
statement takes the place of a sequence: NuoDB gives the rows of a new
column its default if the column may be null; a column that changes is given
its default if that is another one, and in NuoDB also a default by way of
which it becomes mandatory. -/
theorem idle_defaults_spared {t : Target}
    (dialect : t.dialect = .ansi ∨ t.dialect = .nuoDb) {a b : Table}
    (valid : a.validate = .ok ())
    (alike : a.withoutIdleDefaults = b.withoutIdleDefaults) :
    t.deployTable a = t.deployTable b ∧
    (∀ c c' : Column, c.autoNumbered = true →
      c.withoutDefault = c'.withoutDefault →
      (t.SparesAdded c → t.SparesAdded c' →
        t.addColumn a c = t.addColumn b c') ∧
      (∀ type, t.columnType c = .ok type →
        (t.addColumn a.withoutIdleDefaults c.withoutDefault =
          t.addColumn a c ↔ t.SparesAdded c)) ∧
      ∀ statements, t.addColumn a c = .ok statements →
        ((∀ st ∈ statements, st.overridesSequence = false) ↔
          t.SparesAdded c)) ∧
    ∀ source target source' target' : Column,
      source.autoNumbered = true → target.autoNumbered = true →
      source.withoutDefault = source'.withoutDefault →
      target.withoutDefault = target'.withoutDefault →
      (t.SparesChanged a source target → t.SparesChanged b source' target' →
        t.changeColumn a source target = t.changeColumn b source' target') ∧
      (∀ type, t.columnType target = .ok type →
        (t.changeColumn a.withoutIdleDefaults source.withoutDefault
            target.withoutDefault = t.changeColumn a source target ↔
          t.SparesChanged a source target)) ∧
      ∀ statements, t.changeColumn a source target = .ok statements →
        ((∀ st ∈ statements, st.overridesSequence = false) ↔
          source.default? = target.default? ∧
            (t.dialect = .nuoDb →
              source.nullable = true → target.nullable = true)) := by
  have names := Dialect.namesWithoutDefaults dialect
  refine ⟨?_, fun c c' hc hcolumn => ⟨fun spares spares' => ?_,
      fun type htype => addColumn_withoutDefault_iff dialect hc valid htype,
      fun statements h => spares_addColumn_iff dialect h⟩,
    fun source target source' target' hsource htarget hold hnew => ?_⟩
  · -- The two meet in the table without idle defaults, here and below.
    rw [← deployTable_withoutIdleDefaults names a, alike,
      deployTable_withoutIdleDefaults names b]
  · have hc' : c'.autoNumbered = true :=
      (Column.autoNumbered_eq hcolumn).symm.trans hc
    rw [← addColumn_withoutDefault dialect hc a spares, alike, hcolumn,
      addColumn_withoutDefault dialect hc' b spares']
  · have stays : source.autoNumbered = target.autoNumbered :=
      hsource.trans htarget.symm
    have stays' : source'.autoNumbered = target'.autoNumbered :=
      (Column.autoNumbered_eq hold).symm.trans
        (stays.trans (Column.autoNumbered_eq hnew))
    refine ⟨fun spares spares' => ?_,
      fun type htype =>
        changeColumn_withoutDefault_iff dialect stays valid htype,
      fun statements h => spares_changeColumn_iff dialect stays h⟩
    rw [← changeColumn_withoutDefault dialect stays a spares, alike, hold,
      hnew, changeColumn_withoutDefault dialect stays' b spares']

end Target

/-- The number of a voucher, which a sequence gives. -/
def voucherNumber : Column where
  name := "Number"
  type := .bigInteger
  autoNumbered := true

/-- Vouchers, with the column that their number is declared by. -/
def voucherBook (number : Column) : Table where
  name := "Voucher"
  columns := [number, { name := "Payee", type := .string, width := 40 }]

/-- A default beside the sequence makes no difference where the vouchers are
created, where their number is added, and where it is given more digits. -/
theorem idle_defaults_spared_voucherNumber :
    let t : Target := { dialect := .nuoDb }
    let five : Column := { voucherNumber with defaultText := some "5" }
    let a := voucherBook five
    let b := voucherBook voucherNumber
    t.deployTable a = t.deployTable b ∧
      t.addColumn a five = t.addColumn b voucherNumber ∧
      t.changeColumn a { five with type := .integer } five =
        t.changeColumn b { voucherNumber with type := .integer }
          voucherNumber ∧
      (∀ st ∈ [Ddl.alterType ⟨"", "Voucher"⟩ "Number" "BIGINT"],
        st.overridesSequence = false) := by
  intro t five a b
  have valid : a.validate = .ok () :=
    toOption_eq_some_iff.mp (by decide +kernel)
  obtain ⟨hdeploy, hadd, hchange⟩ := Target.idle_defaults_spared
    (t := t) (.inr rfl) valid (b := b) rfl
  have spares : t.SparesAdded five := fun _ hnull => by cases hnull
  have spares' : t.SparesAdded voucherNumber := fun _ hnull => by cases hnull
  have hvalue : t.defaultSql a five = .ok (some "5") :=
    toOption_eq_some_iff.mp (by decide +kernel)
  obtain ⟨hsame, -, hspared⟩ := hchange { five with type := .integer } five
    { voucherNumber with type := .integer } voucherNumber rfl rfl rfl rfl
  refine ⟨hdeploy, (hadd five voucherNumber rfl rfl).1 spares spares',
    hsame ⟨rfl, fun _ _ => ⟨⟨_, hvalue⟩, fun hnull => by cases hnull⟩⟩
      ⟨rfl, fun _ hsome => absurd rfl hsome⟩, ?_⟩
  exact (hspared _ (toOption_eq_some_iff.mp (by decide +kernel))).mpr
    ⟨rfl, fun _ hnull => hnull⟩

/-- A default beside the sequence takes its place where the number of the
vouchers is changed, in standard SQL and in NuoDB. NuoDB gives it to the
vouchers that are there when the number is added as one that may be missing,
and does not change a number whose default it cannot write. -/
theorem voucherNumber_default_not_idle :
    let five : Column := { voucherNumber with defaultText := some "5" }
    let six : Column := { voucherNumber with defaultText := some "six" }
    let maybe : Column := { five with nullable := true }
    let place : ObjectName := ⟨"", "Voucher"⟩
    (voucherBook five).withoutIdleDefaults =
        (voucherBook voucherNumber).withoutIdleDefaults ∧
      (voucherBook five).validate.toOption = some () ∧
      (∀ d ∈ [(Dialect.ansi, ColumnAlteration.setDefault "5"),
          (Dialect.nuoDb, .notNullDefault "5")],
        let t : Target := { dialect := d.1 }
        (t.changeColumn (voucherBook five) voucherNumber five).toOption =
            some [.alterColumn place "Number" d.2] ∧
          (t.changeColumn (voucherBook voucherNumber) voucherNumber
            voucherNumber).toOption = some []) ∧
      let t : Target := { dialect := .nuoDb }
      ((t.addColumn (voucherBook maybe) maybe).toOption.map fun statements =>
          statements.filter Ddl.overridesSequence) =
        some [.fillColumn place "Number" "5"] ∧
      (t.deployTable (voucherBook six)).isOk ∧
      (t.changeColumn (voucherBook six) six six).toOption = none := by
  refine ⟨rfl, ?_⟩
  decide +kernel

end SchemaEvolution

import SchemaEvolution.Proofs.Upgrade.Plans

/-!
# `SchemaEvolution.Proofs.Upgrade.TemporaryTables`: which tables are remembered

A session remembers the temporary tables that it has deployed, and a
snapshot has temporary tables of its own. `TemporaryTables.AreThoseOf`
says that the two agree. Tables that are added and removed are
remembered and forgotten, so that they go on agreeing. A renaming is
not noticed by the session: it goes on remembering the old name.

* `TemporaryTables.areThoseOf_remember_iff`: after an edit the two agree
  again unless the edit renames a temporary table.
* `Session.areThoseOf_plan`: the same for a list of edits.
* `Runner.temporary_tables_follow`: the same for steps that are taken,
  and what that means for references to tables.
* `staging_forgotten`: a temporary table that is renamed is referred to
  as if it were not temporary.
-/

set_option autoImplicit false

namespace SchemaEvolution

open SchemaEvolution.Calendar
open SchemaEvolution.Text

/-! ### The temporary tables of a snapshot -/

/-- The names of those tables that are temporary. -/
def temporaryNames (tables : List Table) : List String :=
  (tables.filter Table.temporary).map Table.name

theorem temporaryNames_append (ts us : List Table) :
    temporaryNames (ts ++ us) = temporaryNames ts ++ temporaryNames us := by
  simp [temporaryNames]

theorem temporaryNames_cons (t : Table) (ts : List Table) :
    temporaryNames (t :: ts) =
      (if t.temporary then [t.name] else []) ++ temporaryNames ts := by
  cases ht : t.temporary <;> simp [temporaryNames, ht]

theorem mem_temporaryNames_iff {tables : List Table} {name : String} :
    name ∈ temporaryNames tables ↔
      ∃ t ∈ tables, t.temporary = true ∧ t.name = name := by
  simp [temporaryNames, and_assoc]

/-- The registry holds the names of the snapshot's temporary tables and
no others. -/
def TemporaryTables.AreThoseOf (names : TemporaryTables) (s : Snapshot) :
    Prop :=
  ∀ name, name ∈ names ↔ name ∈ temporaryNames s.tables

/-- The edit leaves every temporary table the name that it has. -/
def SchemaEdit.KeepsTemporaryNames (s : Snapshot) : SchemaEdit → Prop
  | .renameTable source target =>
      ∀ t ∈ s.table? source, t.temporary = true → t.name = target
  | _ => True

instance (s : Snapshot) : (edit : SchemaEdit) →
    Decidable (edit.KeepsTemporaryNames s)
  | .renameTable source target =>
      inferInstanceAs (Decidable (∀ t ∈ s.table? source,
        t.temporary = true → t.name = target))
  | .addTable _ | .removeTable _ | .addColumn _ _ | .changeColumn _ _ _
  | .removeColumn _ _ | .addIndex _ _ | .removeIndex _ _
  | .renameIndex _ _ _ | .changePrimaryKey _ _ | .removeView _ =>
      .isTrue trivial

namespace TemporaryTables

variable {names : TemporaryTables} {s : Snapshot}

/-- Without tables there is nothing to remember. -/
theorem areThoseOf_empty : (∅ : TemporaryTables).AreThoseOf {} := by
  intro name
  simp [not_mem_empty, temporaryNames]

/-! ### Single edits -/

/-- A table that is exchanged for one of the same name and kind is
remembered as before. -/
theorem AreThoseOf.withTable (h : names.AreThoseOf s) {name : String}
    {t new : Table} (found : s.table? name = some t)
    (hname : new.name = t.name) (hkind : new.temporary = t.temporary) :
    names.AreThoseOf (s.withTable name new) := by
  obtain ⟨-, before, after, hsplit, -, hnew⟩ :=
    Snapshot.tables_eq_append_of_table? found
  intro n
  rw [h n, hnew, hsplit, temporaryNames_append, temporaryNames_append,
    temporaryNames_cons, temporaryNames_cons, hname, hkind]

/-- A table that is added is remembered if it is temporary. -/
theorem AreThoseOf.addTable (h : names.AreThoseOf s) (t : Table) :
    ((SchemaChange.addTable t).remember names).AreThoseOf
      { s with tables := s.tables ++ [t] } := by
  intro name
  show name ∈ (if t.temporary then names.register t.name else names) ↔ _
  rw [temporaryNames_append, temporaryNames_cons, List.mem_append,
    ← h name]
  cases t.temporary with
  | true => simp [mem_register, temporaryNames, or_comm]
  | false => simp [temporaryNames]

/-- A table that is removed is forgotten. The other tables have other
names, so that they are still remembered. -/
theorem AreThoseOf.removeTable (h : names.AreThoseOf s) (wf : s.WellFormed)
    {name : String} {t : Table} (found : s.table? name = some t) :
    ((SchemaChange.removeTable t).remember names).AreThoseOf
      { s with tables := s.tables.eraseP fun u => SameName u.name name }
      := by
  obtain ⟨ht, before, after, hsplit, hbefore, -⟩ :=
    Snapshot.tables_eq_append_of_table? found
  have hrest := Snapshot.eraseP_tables hsplit hbefore ht
  have hothers : ∀ n ∈ temporaryNames (before ++ after),
      n ≠ t.name := by
    intro n hn hsame
    obtain ⟨u, hu, -, rfl⟩ := mem_temporaryNames_iff.mp hn
    have hdistinct := wf.distinct
    rw [hsplit] at hdistinct
    refine hdistinct.not_sameName (List.mem_append.mp hu) ?_
    rw [hsame]
    exact SameName.refl t.name
  intro n
  show n ∈ (if t.temporary then names.unregister t.name else names) ↔
    n ∈ temporaryNames (s.tables.eraseP _)
  have hn := h n
  rw [hsplit, temporaryNames_append, temporaryNames_cons] at hn
  rw [hrest, temporaryNames_append]
  rw [temporaryNames_append] at hothers
  cases hkind : t.temporary with
  | true =>
      rw [if_pos rfl, mem_unregister, hn, hkind]
      have hother := hothers n
      simp only [List.mem_append, if_true, List.mem_singleton] at hother ⊢
      grind
  | false =>
      rw [if_neg Bool.false_ne_true, hn, hkind]
      rfl

/-- A table that is renamed is not remembered under its new name, unless
that is the old one or the table is not temporary. -/
theorem areThoseOf_renamed_iff (h : names.AreThoseOf s)
    (wf : s.WellFormed) {source target : String} {t : Table}
    (found : s.table? source = some t) :
    names.AreThoseOf (s.withTable source { t with name := target }) ↔
      (t.temporary = true → t.name = target) := by
  constructor
  · intro hafter htemporary
    obtain ⟨-, before, after, hsplit, -, hnew⟩ :=
      Snapshot.tables_eq_append_of_table? found
    -- The old name is still remembered, so that a table has it. It cannot
    -- be that of another table.
    have hold : t.name ∈ names := by
      rw [h, hsplit, mem_temporaryNames_iff]
      exact ⟨t, by simp, htemporary, rfl⟩
    rw [hafter, hnew, mem_temporaryNames_iff] at hold
    obtain ⟨u, hu, -, hname⟩ := hold
    have hdistinct := wf.distinct
    rw [hsplit] at hdistinct
    have hothers : ¬ (u ∈ before ∨ u ∈ after) := fun hu =>
      hdistinct.not_sameName hu (by rw [hname]; exact SameName.refl _)
    rw [List.mem_append, List.mem_cons] at hu
    obtain rfl : u = { t with name := target } := by grind
    exact hname.symm
  · intro hkeeps
    cases htemporary : t.temporary with
    | true =>
        obtain rfl := hkeeps htemporary
        exact h.withTable found rfl htemporary.symm
    | false =>
        obtain ⟨-, before, after, hsplit, -, hnew⟩ :=
          Snapshot.tables_eq_append_of_table? found
        intro n
        rw [h n, hnew, hsplit, temporaryNames_append,
          temporaryNames_append, temporaryNames_cons, temporaryNames_cons,
          htemporary]
        rfl

/-- After an edit the registry agrees with the snapshot again, unless the
edit renames a temporary table. -/
theorem areThoseOf_remember_iff (h : names.AreThoseOf s)
    (wf : s.WellFormed) {edit : SchemaEdit} {change : SchemaChange}
    {next : Snapshot} (accepted : s.apply edit = .ok (change, next)) :
    (change.remember names).AreThoseOf next ↔
      edit.KeepsTemporaryNames s := by
  cases edit with
  | addTable t =>
      obtain ⟨-, -, rfl, rfl⟩ := Snapshot.apply_addTable.mp accepted
      exact iff_of_true (h.addTable t) trivial
  | removeTable name =>
      obtain ⟨t, found, rfl, rfl⟩ :=
        Snapshot.apply_removeTable.mp accepted
      exact iff_of_true (h.removeTable wf found) trivial
  | renameTable source target =>
      obtain ⟨t, found, -, -, rfl, rfl⟩ :=
        Snapshot.apply_renameTable.mp accepted
      refine (areThoseOf_renamed_iff h wf found).trans ?_
      simp [SchemaEdit.KeepsTemporaryNames, found]
  | addColumn name c =>
      obtain ⟨t, found, -, -, rfl, rfl⟩ :=
        Snapshot.apply_addColumn.mp accepted
      exact iff_of_true (h.withTable found rfl rfl) trivial
  | changeColumn name column target =>
      obtain ⟨t, found, source, -, -, -, rfl, rfl⟩ :=
        Snapshot.apply_changeColumn.mp accepted
      exact iff_of_true (h.withTable found rfl rfl) trivial
  | removeColumn name column =>
      obtain ⟨t, found, removed, -, -, rfl, rfl⟩ :=
        Snapshot.apply_removeColumn.mp accepted
      exact iff_of_true (h.withTable found rfl rfl) trivial
  | addIndex name i =>
      obtain ⟨t, found, -, -, rfl, rfl⟩ :=
        Snapshot.apply_addIndex.mp accepted
      exact iff_of_true (h.withTable found rfl rfl) trivial
  | removeIndex name index =>
      obtain ⟨t, found, removed, -, -, rfl, rfl⟩ :=
        Snapshot.apply_removeIndex.mp accepted
      exact iff_of_true (h.withTable found rfl rfl) trivial
  | renameIndex name source target =>
      obtain ⟨t, found, existing, -, -, -, rfl, rfl⟩ :=
        Snapshot.apply_renameIndex.mp accepted
      exact iff_of_true (h.withTable found rfl rfl) trivial
  | changePrimaryKey name columns =>
      obtain ⟨t, found, -, -, rfl, rfl⟩ :=
        Snapshot.apply_changePrimaryKey.mp accepted
      exact iff_of_true (h.withTable found rfl rfl) trivial
  | removeView name =>
      obtain ⟨view, -, rfl, rfl⟩ := Snapshot.apply_removeView.mp accepted
      exact iff_of_true h trivial

end TemporaryTables

/-! ### Edits in a row -/

/-- None of the edits, made one after the other from `s` on, renames a
temporary table. -/
def Snapshot.KeepTemporaryNames (s : Snapshot) (edits : List SchemaEdit) :
    Prop :=
  s.Along (fun met edit => edit.KeepsTemporaryNames met) edits

instance (s : Snapshot) (edits : List SchemaEdit) :
    Decidable (s.KeepTemporaryNames edits) :=
  inferInstanceAs (Decidable (s.Along _ edits))

namespace Session

/-- The tables that a session remembers go on being those of the snapshot
while edits are planned. -/
theorem areThoseOf_plan {session : Session} {s final : Snapshot}
    {edits : List SchemaEdit} {statements : List Ddl}
    (h : session.temporary.AreThoseOf s) (wf : s.WellFormed)
    (planned : session.target.planEdits s edits =
      .ok (statements, final))
    (kept : s.KeepTemporaryNames edits) :
    (session.plan s edits).2.temporary.AreThoseOf final := by
  induction edits generalizing session s statements with
  | nil =>
      obtain ⟨-, rfl⟩ : [] = statements ∧ s = final := by
        simpa [Target.planEdits] using planned
      exact h
  | cons edit rest ih =>
      obtain ⟨change, next, now, more, hedit, hchange, hrest, -⟩ :=
        Target.planEdits_cons_eq_ok_iff.mp planned
      obtain ⟨hkeeps, hkept⟩ := kept
      rw [plan_snd_cons hedit hchange]
      exact ih
        ((TemporaryTables.areThoseOf_remember_iff h wf hedit).mpr hkeeps)
        (wf.apply hedit) hrest (hkept change next hedit)

/-- When the tables that a session remembers are those of a snapshot, a
reference without a schema of its own is qualified unless it is to a
temporary table. -/
theorem qualifier_of_areThoseOf {session : Session} {s : Snapshot}
    (h : session.temporary.AreThoseOf s) {ref : TableRef}
    (bare : ref.schema.bind nonBlank? = none) :
    ((∃ t ∈ s.tables, t.temporary = true ∧ t.name = ref.name) →
        session.qualifier ref = "") ∧
      ((¬ ∃ t ∈ s.tables, t.temporary = true ∧ t.name = ref.name) →
        session.qualifier ref = session.target.schemaQualifier) := by
  simp only [← mem_temporaryNames_iff, ← h ref.name, qualifier, bare]
  exact ⟨fun hmem => if_pos hmem, fun hmem => if_neg hmem⟩

end Session

/-! ### Steps that are taken -/

namespace Runner

variable {σ : Type}

/-- The tables that a runner remembers go on being those of its snapshot
while steps are taken. -/
theorem areThoseOf_applyAll {r : Runner σ} {now : UpgradeStep → Instant}
    {steps : List UpgradeStep} {sql : List String}
    (h : r.session.temporary.AreThoseOf r.snapshot)
    (wf : r.snapshot.WellFormed)
    (taken : (r.applyAll now steps).1 = .ok sql)
    (kept : r.snapshot.KeepTemporaryNames
      (steps.flatMap UpgradeStep.edits)) :
    (r.applyAll now steps).2.session.temporary.AreThoseOf
      (r.applyAll now steps).2.snapshot := by
  induction steps generalizing r sql with
  | nil => exact h
  | cons step rest ih =>
      obtain ⟨first, more, hfirst, hmore, -⟩ :=
        applyAll_cons_eq_ok_iff.mp taken
      obtain ⟨statements, next, plan, -, hstep⟩ := apply_eq_of_ok hfirst
      have hreplay := Target.replay_of_planEdits plan
      rw [List.flatMap_cons] at kept
      obtain ⟨hnow, hthen⟩ := (Snapshot.along_append_iff hreplay).mp kept
      rw [applyAll_cons_of_ok (Prod.ext hfirst rfl)]
      -- The rest of the steps start from what the first has left.
      rw [hstep] at hmore ⊢
      exact ih (Session.areThoseOf_plan h wf plan hnow)
        (wf.replay hreplay) hmore hthen

/-- The temporary tables that a runner remembers are those of its
snapshot, as long as none of them is renamed. So a reference without a
schema of its own is written without a qualifier when it is to one of
them, and behind the configured schema when it is not. -/
theorem temporary_tables_follow {r : Runner σ} (fresh : r.snapshot = {})
    (forgetful : r.session.temporary = ∅) {now : UpgradeStep → Instant}
    {steps : List UpgradeStep} {sql : List String}
    (taken : (r.applyAll now steps).1 = .ok sql)
    (kept : Snapshot.KeepTemporaryNames {}
      (steps.flatMap UpgradeStep.edits)) :
    let last := (r.applyAll now steps).2
    (∀ name, name ∈ last.session.temporary ↔
      ∃ t ∈ last.snapshot.tables, t.temporary = true ∧ t.name = name) ∧
    ∀ ref : TableRef, ref.schema.bind nonBlank? = none →
      ((∃ t ∈ last.snapshot.tables,
          t.temporary = true ∧ t.name = ref.name) →
        last.session.qualifier ref = "") ∧
      ((¬ ∃ t ∈ last.snapshot.tables,
          t.temporary = true ∧ t.name = ref.name) →
        last.session.qualifier ref =
          last.session.target.schemaQualifier) := by
  intro last
  have hstart : r.session.temporary.AreThoseOf r.snapshot := by
    rw [fresh, forgetful]
    exact TemporaryTables.areThoseOf_empty
  have wf : r.snapshot.WellFormed := by
    rw [fresh]
    exact Snapshot.wellFormed_empty
  rw [← fresh] at kept
  have hlast : last.session.temporary.AreThoseOf last.snapshot :=
    areThoseOf_applyAll hstart wf taken kept
  refine ⟨fun name => ?_, fun ref bare => ?_⟩
  · rw [hlast name, mem_temporaryNames_iff]
  · exact Session.qualifier_of_areThoseOf hlast bare

end Runner

/-! ### A temporary table and its renaming -/

/-- An upgrade in the schema `App` that has yet to begin. -/
def stagingRunner : Runner Unit where
  session := { target := { dialect := .ansi
                           config := { schemaName := "App" } } }
  execute := Executor.willing
  state := ()

/-- Deploys a temporary table and another one. -/
def deployStaging : UpgradeStep where
  id := "deploy-staging"
  sequence := 1
  edits :=
    [.addTable
      { name := "Staging"
        columns := [{ name := "Code", type := .string, width := 3 }]
        temporary := true },
     .addTable
      { name := "Currency"
        columns := [{ name := "Code", type := .string, width := 3 }] }]

/-- Renames the temporary one. -/
def renameStaging : UpgradeStep where
  id := "rename-staging"
  sequence := 3
  edits := [.renameTable "Staging" "Intake"]

/-- A temporary table is referred to without the schema that the others
lie in, also after one of these was renamed. -/
theorem staging_remembered :
    let last := (stagingRunner.applyAll (fun _ => .leapDay)
      [deployStaging, renameCurrency]).2
    "Staging" ∈ last.session.temporary ∧
      last.session.qualifier { name := "Staging" } = "" ∧
      last.session.qualifier { name := "Money" } = "App." := by
  have taken : (stagingRunner.applyAll (fun _ => .leapDay)
      [deployStaging, renameCurrency]).1 =
        .ok ["CREATE TEMPORARY TABLE App.Staging (Code VARCHAR(3) " ++
            "NOT NULL)",
          "CREATE TABLE App.Currency (Code VARCHAR(3) NOT NULL)",
          "ALTER TABLE App.Currency RENAME TO App.Money"] :=
    toOption_eq_some_iff.mp (by decide +kernel)
  obtain ⟨hnames, hrefs⟩ := Runner.temporary_tables_follow rfl rfl taken
    (by decide +kernel)
  refine ⟨(hnames _).mpr ?_, (hrefs _ rfl).1 ?_,
    ((hrefs _ rfl).2 ?_).trans ?_⟩
  all_goals decide +kernel

/-- Once it has been renamed, a temporary table is referred to in the
schema, where it does not lie. -/
theorem staging_forgotten :
    let last := (stagingRunner.applyAll (fun _ => .leapDay)
      [deployStaging, renameStaging]).2
    last.history.applied.map AppliedStep.id =
        ["deploy-staging", "rename-staging"] ∧
      temporaryNames last.snapshot.tables = ["Intake"] ∧
      last.session.temporary.names = ["Staging"] ∧
      last.session.qualifier { name := "Intake" } = "App." := by
  decide +kernel

end SchemaEvolution

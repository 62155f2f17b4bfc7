import SchemaEvolution.Proofs.Session.TemporaryTables
import SchemaEvolution.Proofs.Upgrade.TemporaryTables

/-!
# `SchemaEvolution.Proofs.Upgrade.FailedSteps`: what a failed step leaves

A step that fails moves neither the snapshot nor the history. The
temporary tables of the session are another matter: they are noted while
the edits are written, and nothing takes these notes back.
`Target.writtenChanges` are the changes that were written when the plan
ended, and `Runner.noted` is what they do to temporary tables.

* `Session.temporary_plan`: a plan notes what it has written, and no
  more.
* `Target.writtenChanges_of_refuses`: a change that cannot be made or
  written is not noted, and neither are those after it.
* `Runner.areThoseOf_of_refuses`: where an edit is at fault, the notes are
  those of the snapshot that the edits before it would have led to.
* `Runner.failed_step_unnoticed_iff`: when a failed step leaves the
  session as it was, and what it has done to it otherwise.
* `staging_unregistered`: a temporary table that a failed step was to
  remove is qualified from then on, although it is still there.
-/

set_option autoImplicit false

namespace SchemaEvolution

open SchemaEvolution.Calendar
open SchemaEvolution.Text

/-! ### What a plan has written -/

namespace Target

/-- The changes that are written for edits that are made one after the
other, up to the first edit that cannot be made or written. -/
def writtenChanges (t : Target) (s : Snapshot) :
    List SchemaEdit → List SchemaChange
  | [] => []
  | edit :: rest =>
      match s.apply edit with
      | .error _ => []
      | .ok (change, next) =>
          match t.planChange change with
          | .error _ => []
          | .ok _ => change :: t.writtenChanges next rest

variable {t : Target} {s : Snapshot}

/-- A change that is written stands before those of the rest. -/
theorem writtenChanges_cons {edit : SchemaEdit} {rest : List SchemaEdit}
    {change : SchemaChange} {next : Snapshot} {statements : List Ddl}
    (hedit : s.apply edit = .ok (change, next))
    (hchange : t.planChange change = .ok statements) :
    t.writtenChanges s (edit :: rest) =
      change :: t.writtenChanges next rest := by
  simp only [writtenChanges, hedit, hchange]

/-- Nothing is written for an edit that is refused and for those after
it. -/
theorem writtenChanges_cons_of_refuses {edit : SchemaEdit}
    {rest : List SchemaEdit} {e : UpgradeError}
    (h : t.Refuses s edit e) : t.writtenChanges s (edit :: rest) = [] := by
  rcases h with hedit | ⟨change, next, cause, hedit, hchange, -⟩
  · simp only [writtenChanges, hedit]
  · simp only [writtenChanges, hedit, hchange]

/-- What is written for a plan that fails is what is written for the edits
before the one at fault. -/
theorem writtenChanges_of_refuses {done rest : List SchemaEdit}
    {edit : SchemaEdit} {e : UpgradeError} {statements : List Ddl}
    {reached : Snapshot}
    (hdone : t.planEdits s done = .ok (statements, reached))
    (stuck : t.Refuses reached edit e) :
    t.writtenChanges s (done ++ edit :: rest) = t.writtenChanges s done := by
  induction done generalizing s statements with
  | nil =>
      obtain ⟨-, rfl⟩ : [] = statements ∧ s = reached := by
        simpa [planEdits] using hdone
      exact writtenChanges_cons_of_refuses stuck
  | cons first done ih =>
      obtain ⟨change, next, now, more, hedit, hchange, hmore, -⟩ :=
        planEdits_cons_eq_ok_iff.mp hdone
      rw [List.cons_append, writtenChanges_cons hedit hchange,
        writtenChanges_cons hedit hchange, ih hmore]

end Target

namespace Session

/-- An edit that is refused leaves the session alone. -/
theorem plan_snd_cons_of_refuses {s : Session} {snapshot : Snapshot}
    {edit : SchemaEdit} {rest : List SchemaEdit} {e : UpgradeError}
    (h : s.target.Refuses snapshot edit e) :
    (s.plan snapshot (edit :: rest)).2 = s := by
  rcases h with hedit | ⟨change, next, cause, hedit, hchange, -⟩
  · simp only [plan, hedit]
  · simp only [plan, hedit, change_of_error hchange]

/-- A session has noted what the changes that were written do to
temporary tables, whether or not the plan was made to its end. -/
theorem temporary_plan (s : Session) (snapshot : Snapshot)
    (edits : List SchemaEdit) :
    (s.plan snapshot edits).2.temporary =
      ((s.target.writtenChanges snapshot edits).filterMap
        SchemaChange.event?).foldl .record s.temporary := by
  induction edits generalizing s snapshot with
  | nil => rfl
  | cons edit rest ih =>
      cases hedit : snapshot.apply edit with
      | error e =>
          rw [plan_snd_cons_of_refuses (.inl hedit),
            Target.writtenChanges_cons_of_refuses (.inl hedit)]
          rfl
      | ok made =>
          -- What is registered follows the changes that were written, up to
          -- the first that was not.
          obtain ⟨change, next⟩ := made
          cases hchange : s.target.planChange change with
          | error cause =>
              have stuck : s.target.Refuses snapshot edit
                  (.dialect cause) :=
                .inr ⟨change, next, cause, hedit, hchange, rfl⟩
              rw [plan_snd_cons_of_refuses stuck,
                Target.writtenChanges_cons_of_refuses stuck]
              rfl
          | ok statements =>
              rw [plan_snd_cons hedit hchange, ih,
                Target.writtenChanges_cons hedit hchange,
                SchemaChange.remember_eq]
              cases hevent : change.event? <;> simp [hevent]

/-- Two sessions with one target qualify every reference alike when they
remember the same tables, or when there is no schema to write. -/
theorem qualifier_eq_iff {s s' : Session} (target : s'.target = s.target) :
    (∀ ref, s'.qualifier ref = s.qualifier ref) ↔
      s.target.schemaQualifier = "" ∨
        ∀ name, name ∈ s'.temporary ↔ name ∈ s.temporary := by
  have dialect : s'.dialect = s.dialect := congrArg Target.dialect target
  constructor
  · -- A reference without a schema tells whether its table is registered, if
    -- there is a qualifier to tell it by.
    intro same
    by_cases hq : s.target.schemaQualifier = ""
    · exact .inl hq
    · refine .inr fun name => ?_
      have h := same { name := name }
      simp only [qualifier, Option.bind_none, target] at h
      constructor
      · intro held
        by_contra lost
        rw [if_pos held, if_neg lost] at h
        exact hq h.symm
      · intro held
        by_contra lost
        rw [if_neg lost, if_pos held] at h
        exact hq h
  · rintro (hq | same) ref
    · simp only [qualifier, target, dialect, hq, ite_self]
    · simp only [qualifier, target, dialect, same]

end Session

/-! ### Notes that leave everything as it was -/

/-- The latest note on each name is what holds of it anyway. -/
def TemporaryTables.Settled (names : TemporaryTables)
    (events : List TemporaryEvent) : Prop :=
  ∀ e ∈ events, TemporaryEvent.latest? events e.name = some e →
    (e.enters = true ↔ e.name ∈ names)

instance (names : TemporaryTables) (events : List TemporaryEvent) :
    Decidable (names.Settled events) :=
  inferInstanceAs (Decidable (∀ e ∈ events, _ → _))

/-- The latest event about a name is one of the events, and about that
name. -/
theorem TemporaryEvent.of_latest? {events : List TemporaryEvent}
    {name : String} {e : TemporaryEvent}
    (h : latest? events name = some e) : e ∈ events ∧ e.name = name :=
  ⟨List.mem_reverse.mp (List.mem_of_find?_eq_some h),
    by simpa using List.find?_some h⟩

/-- Notes leave a registry with the names that it had exactly when they
say nothing new. -/
theorem TemporaryTables.foldl_record_iff {names : TemporaryTables}
    {events : List TemporaryEvent} :
    (∀ name, name ∈ events.foldl record names ↔ name ∈ names) ↔
      names.Settled events := by
  constructor
  · intro same e _ latest
    have h := same e.name
    rw [mem_foldl_record_iff, latest] at h
    exact h
  · intro settled name
    rw [mem_foldl_record_iff]
    cases latest : TemporaryEvent.latest? events name with
    | none => rfl
    | some e =>
        obtain ⟨he, rfl⟩ := TemporaryEvent.of_latest? latest
        exact settled e he latest

/-! ### Steps that fail -/

namespace Runner

variable {σ : Type} {r : Runner σ} {now : Instant} {step : UpgradeStep}

/-- What is noted of temporary tables when the step is tried. A step out
of order is not looked at. -/
def noted (r : Runner σ) (step : UpgradeStep) : List TemporaryEvent :=
  match r.history.checkNext step with
  | .error _ => []
  | .ok () =>
      (r.session.target.writtenChanges r.snapshot step.edits).filterMap
        SchemaChange.event?

/-- Trying a step leaves the notes in the session, whatever it comes
to. -/
theorem temporary_apply (r : Runner σ) (now : Instant)
    (step : UpgradeStep) :
    (r.apply now step).2.session.temporary =
      (r.noted step).foldl .record r.session.temporary := by
  unfold noted
  rcases r.outcome_cases step with ⟨e, check⟩ | ⟨check, ⟨e, plan⟩ |
    ⟨statements, next, plan, ⟨reason, state, run⟩ | ⟨state, run⟩⟩⟩
  · rw [apply_of_check_error check, check]
    rfl
  · rw [apply_of_plan_error check plan, check]
    exact r.session.temporary_plan r.snapshot step.edits
  · rw [apply_of_refused check plan run, check]
    exact r.session.temporary_plan r.snapshot step.edits
  · rw [apply_of_accepted check plan run, check]
    exact r.session.temporary_plan r.snapshot step.edits

/-- What has been written of a step when it fails with an error: nothing
if it is out of order, the changes before the edit at fault, and all of
them if the executor refuses a statement. -/
inductive WrittenBefore (r : Runner σ) (step : UpgradeStep) :
    UpgradeError → List SchemaChange → Prop
  | outOfOrder {e : UpgradeError}
      (check : r.history.checkNext step = .error e) :
      WrittenBefore r step e []
  | stuck {done rest : List SchemaEdit} {edit : SchemaEdit}
      {statements : List Ddl} {reached : Snapshot} {e : UpgradeError}
      (edits : step.edits = done ++ edit :: rest)
      (plan : r.session.target.planEdits r.snapshot done =
        .ok (statements, reached))
      (refuses : r.session.target.Refuses reached edit e) :
      WrittenBefore r step e
        (r.session.target.writtenChanges r.snapshot done)
  | refused (reason : String) :
      WrittenBefore r step (.executor step.id reason)
        (r.session.target.writtenChanges r.snapshot step.edits)

/-- What is noted of a step that fails is what had been written of it. -/
theorem exists_writtenBefore {e : UpgradeError}
    (fails : (r.apply now step).1 = .error e) :
    ∃ written, r.WrittenBefore step e written ∧
      r.noted step = written.filterMap SchemaChange.event? := by
  rcases r.outcome_cases step with ⟨cause, check⟩ | ⟨check, ⟨cause, plan⟩ |
    ⟨statements, next, plan, ⟨reason, state, run⟩ | ⟨state, run⟩⟩⟩
  · rw [apply_of_check_error check] at fails
    cases fails
    exact ⟨_, .outOfOrder check, by rw [noted, check]; rfl⟩
  · rw [apply_of_plan_error check plan] at fails
    cases fails
    obtain ⟨done, edit, rest, statements, reached, hedits, hdone, stuck⟩ :=
      Target.planEdits_eq_error_iff.mp plan
    refine ⟨_, .stuck hedits hdone stuck, ?_⟩
    rw [noted, check, hedits, Target.writtenChanges_of_refuses hdone stuck]
  · rw [apply_of_refused check plan run] at fails
    cases fails
    exact ⟨_, .refused reason, by rw [noted, check]⟩
  · rw [apply_of_accepted check plan run] at fails
    cases fails

/-- A runner that remembers the temporary tables of its snapshot
remembers, when an edit is at fault, those of the snapshot that the edits
before it would have led to. -/
theorem areThoseOf_of_refuses (h : r.session.temporary.AreThoseOf r.snapshot)
    (wf : r.snapshot.WellFormed) (check : r.history.checkNext step = .ok ())
    {done rest : List SchemaEdit} {edit : SchemaEdit} {e : UpgradeError}
    {statements : List Ddl} {reached : Snapshot}
    (hedits : step.edits = done ++ edit :: rest)
    (hdone : r.session.target.planEdits r.snapshot done =
      .ok (statements, reached))
    (stuck : r.session.target.Refuses reached edit e)
    (kept : r.snapshot.KeepTemporaryNames done) :
    (r.apply now step).2.session.temporary.AreThoseOf reached := by
  rw [temporary_apply, noted, check, hedits]
  simp only [Target.writtenChanges_of_refuses hdone stuck]
  rw [← Session.temporary_plan]
  exact Session.areThoseOf_plan h wf hdone kept

/-- A step that fails leaves what was noted of temporary tables before it
failed. The session remembers the same tables as before exactly when
these notes say nothing new, and then every reference is qualified as if
the step had never been tried. Where there is a schema to write, this is
not so otherwise. -/
theorem failed_step_unnoticed_iff {e : UpgradeError}
    (fails : (r.apply now step).1 = .error e) :
    let after := (r.apply now step).2
    (∃ written, r.WrittenBefore step e written ∧
      r.noted step = written.filterMap SchemaChange.event?) ∧
    ((∀ name, name ∈ after.session.temporary ↔
        name ∈ r.session.temporary) ↔
      r.session.temporary.Settled (r.noted step)) ∧
    ((∀ ref, after.session.qualifier ref = r.session.qualifier ref) ↔
      r.session.target.schemaQualifier = "" ∨
        r.session.temporary.Settled (r.noted step)) := by
  intro after
  have names : (∀ name, name ∈ after.session.temporary ↔
        name ∈ r.session.temporary) ↔
      r.session.temporary.Settled (r.noted step) := by
    rw [temporary_apply]
    exact TemporaryTables.foldl_record_iff
  refine ⟨exists_writtenBefore fails, names, ?_⟩
  rw [Session.qualifier_eq_iff (r.apply_setup now step).1, names]

end Runner

/-! ### A step that fails halfway -/

/-- The temporary table is deployed. -/
def stagingDeployed : Runner Unit :=
  (stagingRunner.apply .leapDay deployStaging).2

/-- Deploys a temporary table and removes it again, and then fails. -/
def tryDraft : UpgradeStep where
  id := "try-draft"
  sequence := 2
  edits :=
    [.addTable
      { name := "Draft"
        columns := [{ name := "Code", type := .string, width := 3 }]
        temporary := true },
     .removeTable "Draft", .removeTable "Missing"]

/-- Removes the temporary table, and then fails. -/
def failAfterStaging : UpgradeStep where
  id := "fail-after-staging"
  sequence := 2
  edits := [.removeTable "Staging", .removeTable "Missing"]

/-- A temporary table that comes and goes before the step fails leaves no
trace. -/
theorem draft_unnoticed :
    let after := (stagingDeployed.apply .leapDay tryDraft).2
    (stagingDeployed.apply .leapDay tryDraft).1 =
        .error (.unknownTable "Missing") ∧
      (∀ name, name ∈ after.session.temporary ↔
        name ∈ stagingDeployed.session.temporary) ∧
      ∀ ref, after.session.qualifier ref =
        stagingDeployed.session.qualifier ref := by
  have fails : (stagingDeployed.apply .leapDay tryDraft).1 =
      .error (.unknownTable "Missing") := by
    decide +kernel
  obtain ⟨-, names, refs⟩ := Runner.failed_step_unnoticed_iff fails
  have settled : stagingDeployed.session.temporary.Settled
      (stagingDeployed.noted tryDraft) := by
    decide +kernel
  exact ⟨fails, names.mpr settled, refs.mpr (.inr settled)⟩

/-- A temporary table that a failed step was to remove is still in the
snapshot, but it is forgotten, and references to it are qualified. -/
theorem staging_unregistered :
    let after := (stagingDeployed.apply .leapDay failAfterStaging).2
    (stagingDeployed.apply .leapDay failAfterStaging).1 =
        .error (.unknownTable "Missing") ∧
      temporaryNames after.snapshot.tables = ["Staging"] ∧
      "Staging" ∈ stagingDeployed.session.temporary ∧
      "Staging" ∉ after.session.temporary ∧
      stagingDeployed.session.qualifier { name := "Staging" } = "" ∧
      after.session.qualifier { name := "Staging" } = "App." := by
  decide +kernel

end SchemaEvolution

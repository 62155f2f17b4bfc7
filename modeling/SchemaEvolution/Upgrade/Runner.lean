import SchemaEvolution.Session.Basic
import SchemaEvolution.Upgrade.Snapshot
import SchemaEvolution.Upgrade.Step

/-!
# `SchemaEvolution.Upgrade.Runner`: taking the steps of an upgrade

A runner takes a step at a time. It checks that the step comes next,
works out all of the statements, hands them to the executor one by
one, and moves the snapshot and the history on only when every
statement has gone through. The session's temporary tables follow the
changes as they are written, whether or not the step goes on to
succeed.

* `Runner.apply_dryRun_state`: a dry run leaves the executor alone.
-/

set_option autoImplicit false

namespace SchemaEvolution

open SchemaEvolution.Calendar

/-- What runs statements: it may refuse one, giving a reason, and its
state may change either way. -/
abbrev Executor (σ : Type) := String → σ → Except String Unit × σ

/-- The statements of edits that are made one after the other, the
snapshot after them, and the session. -/
def Session.plan (s : Session) (snapshot : Snapshot) :
    List SchemaEdit →
      Except UpgradeError (List Ddl × Snapshot) × Session
  | [] => (.ok ([], snapshot), s)
  | edit :: rest =>
      match snapshot.apply edit with
      | .error e => (.error e, s)
      | .ok (change, next) =>
          match s.change change with
          | (.error e, s) => (.error (.dialect e), s)
          | (.ok statements, s) =>
              match s.plan next rest with
              | (.error e, s) => (.error e, s)
              | (.ok (more, final), s) =>
                  (.ok (statements ++ more, final), s)

/-- Hands statements to an executor up to the first that it
refuses. -/
def Executor.run {σ : Type} (execute : Executor σ) :
    List String → σ → Except String Unit × σ
  | [], state => (.ok (), state)
  | sql :: rest, state =>
      match execute sql state with
      | (.error reason, state) => (.error reason, state)
      | (.ok (), state) => Executor.run execute rest state

/-- An upgrade under way. In a dry run the executor is left alone. -/
structure Runner (σ : Type) where
  session : Session
  execute : Executor σ
  state : σ
  snapshot : Snapshot := {}
  history : History := {}
  dryRun : Bool := false

namespace Runner

variable {σ : Type}

/-- The statements of a step, which is not taken. -/
def sqlFor (r : Runner σ) (step : UpgradeStep) :
    Except UpgradeError (List String) × Runner σ :=
  let (result, session) := r.session.plan r.snapshot step.edits
  (result.map fun (statements, _) => session.target.texts statements,
    { r with session := session })

/-- Hands statements to the executor, unless the run is dry. -/
def runStatements (r : Runner σ) (statements : List String) :
    Except String Unit × σ :=
  if r.dryRun then (.ok (), r.state)
  else Executor.run r.execute statements r.state

/-- Takes a step, and gives the statements that were run for it. -/
def apply (r : Runner σ) (now : Instant) (step : UpgradeStep) :
    Except UpgradeError (List String) × Runner σ :=
  match r.history.checkNext step with
  | .error e => (.error e, r)
  | .ok () =>
      match r.session.plan r.snapshot step.edits with
      | (.error e, session) => (.error e, { r with session := session })
      | (.ok (statements, snapshot), session) =>
          let sql := session.target.texts statements
          match r.runStatements sql with
          | (.error reason, state) =>
              (.error (.executor step.id reason),
                { r with session := session, state := state })
          | (.ok (), state) =>
              (.ok sql,
                { r with
                  session := session
                  state := state
                  snapshot := snapshot
                  history := r.history.record step now })

/-- Takes steps up to the first that fails. The steps before it stay
taken. -/
def applyAll (r : Runner σ) (now : UpgradeStep → Instant) :
    List UpgradeStep → Except UpgradeError (List String) × Runner σ
  | [] => (.ok [], r)
  | step :: rest =>
      match r.apply (now step) step with
      | (.error e, r) => (.error e, r)
      | (.ok statements, r) =>
          match r.applyAll now rest with
          | (.error e, r) => (.error e, r)
          | (.ok more, r) => (.ok (statements ++ more), r)

/-- A dry run leaves the executor alone. -/
theorem apply_dryRun_state {r : Runner σ} (dry : r.dryRun = true)
    (now : Instant) (step : UpgradeStep) :
    (r.apply now step).2.state = r.state := by
  unfold apply runStatements
  simp only [dry, if_true]
  split
  · rfl
  · split <;> rfl

end Runner

end SchemaEvolution

import SchemaEvolution.Dialect.Ansi
import SchemaEvolution.Proofs.Upgrade.Runner

/-!
# `SchemaEvolution.Proofs.Upgrade.Atomicity`: all of a step or nothing

What an executor has been handed is seen by wrapping it in one that
writes down every statement before it passes it on. `Executor.logged`
is that wrapper, and `Runner.handed` is what it has written down once a
step has been tried. `Runner.apply_logged` shows that the wrapper is not
noticed: the run is the same with it and without it.

* `Executor.logged_run_of_ok`, `Executor.logged_run_of_refuses`: what is
  written down when all statements go through, and when one is refused.
* `Runner.planned_previewed`, `Runner.sqlFor_previewed`: previews leave no
  trace in what a step comes to.
* `Runner.apply_all_or_nothing`: a step that fails has run a prefix of
  its statements and moved nothing, a step that is taken has run all of
  them, and a dry run tells beforehand what a real run will do.
-/

set_option autoImplicit false

namespace SchemaEvolution

open SchemaEvolution.Calendar

/-! ### What an executor is handed -/

namespace Executor

variable {σ : Type}

/-- The executor that also writes down what it is handed. -/
def logged (execute : Executor σ) : Executor (σ × List String) :=
  fun sql entry =>
    ((execute sql entry.1).1, (execute sql entry.1).2, entry.2 ++ [sql])

/-- The executor accepts the statements of `before`, one after the
other, and refuses the one that comes then. -/
def Refuses (execute : Executor σ) (state : σ) (before : List String)
    (sql reason : String) : Prop :=
  ∃ reached, execute.run before state = (.ok (), reached) ∧
    (execute sql reached).1 = .error reason

variable {execute : Executor σ}

/-- The first statement is run, and the rest after it if it is
accepted. -/
theorem run_cons_of_ok {sql : String} {rest : List String}
    {state reached : σ} (h : execute sql state = (.ok (), reached)) :
    execute.run (sql :: rest) state = execute.run rest reached := by
  rw [run, h]

/-- A statement that is refused is the last one. -/
theorem run_cons_of_error {sql reason : String} {rest : List String}
    {state : σ} (h : (execute sql state).1 = .error reason) :
    execute.run (sql :: rest) state =
      (.error reason, (execute sql state).2) := by
  rw [run]
  cases hsql : execute sql state with
  | mk answer reached =>
      rw [hsql] at h
      cases h
      rfl

/-- Statements that are all accepted are followed by the next ones. -/
theorem run_append_of_ok {before rest : List String} {state reached : σ}
    (h : execute.run before state = (.ok (), reached)) :
    execute.run (before ++ rest) state = execute.run rest reached := by
  induction before generalizing state with
  | nil =>
      cases h
      rfl
  | cons sql before ih =>
      rw [run] at h
      rw [List.cons_append, run]
      split
      · rename_i hsql
        rw [hsql] at h
        cases h
      · rename_i next hsql
        rw [hsql] at h
        exact ih h

/-- The run stops at the statement that is refused. -/
theorem run_of_refuses {before after : List String}
    {sql reason : String} {state : σ}
    (h : execute.Refuses state before sql reason) :
    (execute.run (before ++ sql :: after) state).1 = .error reason := by
  obtain ⟨reached, hbefore, hsql⟩ := h
  rw [run_append_of_ok hbefore, run_cons_of_error hsql]

/-- An executor that never refuses accepts everything. -/
theorem run_of_never {sql : List String} {state : σ}
    (never : ∀ text state, (execute text state).1 = .ok ()) :
    (execute.run sql state).1 = .ok () := by
  induction sql generalizing state with
  | nil => rfl
  | cons text rest ih =>
      have htext : execute text state = (.ok (), (execute text state).2) :=
        Prod.ext (never text state) rfl
      rw [run_cons_of_ok htext]
      exact ih

/-- Writing down does not change the run. -/
theorem run_logged (sql : List String) (state : σ) (log : List String) :
    (execute.logged.run sql (state, log)).1 = (execute.run sql state).1 ∧
      (execute.logged.run sql (state, log)).2.1 =
        (execute.run sql state).2 := by
  induction sql generalizing state log with
  | nil => exact ⟨rfl, rfl⟩
  | cons text rest ih =>
      rw [run, run]
      simp only [logged]
      -- Both runs stop at this statement, or go on from the same state.
      cases htext : execute text state with
      | mk answer reached =>
          cases answer with
          | error reason => exact ⟨rfl, rfl⟩
          | ok u => exact ih reached (log ++ [text])

/-- When all statements go through, all of them are written down. -/
theorem logged_run_of_ok {sql : List String} {state reached : σ}
    {log : List String} (h : execute.run sql state = (.ok (), reached)) :
    execute.logged.run sql (state, log) =
      (.ok (), (reached, log ++ sql)) := by
  induction sql generalizing state log with
  | nil =>
      cases h
      rw [List.append_nil]
      rfl
  | cons text rest ih =>
      rw [run] at h
      split at h
      · cases h
      · rename_i next htext
        have hlogged : execute.logged text (state, log) =
            (.ok (), (next, log ++ [text])) := by
          simp only [logged, htext]
        rw [run_cons_of_ok hlogged, ih h, List.append_assoc]
        rfl

/-- When a statement is refused, it is the last to be written down. -/
theorem logged_run_of_refuses {before after : List String}
    {sql reason : String} {state : σ} {log : List String}
    (h : execute.Refuses state before sql reason) :
    (execute.logged.run (before ++ sql :: after) (state, log)).2.2 =
      log ++ (before ++ [sql]) := by
  obtain ⟨reached, hbefore, hsql⟩ := h
  have hlogged : (execute.logged sql (reached, log ++ before)).1 =
      .error reason := hsql
  rw [run_append_of_ok (logged_run_of_ok hbefore),
    run_cons_of_error hlogged]
  show log ++ before ++ [sql] = log ++ (before ++ [sql])
  rw [List.append_assoc]

end Executor

namespace Runner

variable {σ : Type} {r : Runner σ} {now : Instant} {step : UpgradeStep}

/-- The runner with an executor that writes down what it is handed, and
has written down nothing yet. -/
def logged (r : Runner σ) : Runner (σ × List String) :=
  { r with execute := r.execute.logged, state := (r.state, []) }

/-- What the executor is handed when a step is tried. -/
def handed (r : Runner σ) (now : Instant) (step : UpgradeStep) :
    List String :=
  (r.logged.apply now step).2.state.2

/-- The runner after a preview of each of the steps. -/
def previewed (r : Runner σ) (steps : List UpgradeStep) : Runner σ :=
  steps.foldl (fun r step => (r.sqlFor step).2) r

/-- The step fails with `e`, and moves neither the snapshot nor the
history. -/
def FailsWith (r : Runner σ) (now : Instant) (step : UpgradeStep)
    (e : UpgradeError) : Prop :=
  (r.apply now step).1 = .error e ∧
    (r.apply now step).2.snapshot = r.snapshot ∧
    (r.apply now step).2.history = r.history

/-! ### What a runner hands over -/

theorem runStatements_of_dry (dry : r.dryRun = true)
    (sql : List String) : r.runStatements sql = (.ok (), r.state) := by
  rw [runStatements, if_pos dry]

theorem runStatements_of_real (real : r.dryRun = false)
    (sql : List String) :
    r.runStatements sql = r.execute.run sql r.state := by
  rw [runStatements, if_neg (by simp [real])]

/-- Statements are run the same way when they are written down. -/
theorem runStatements_logged (r : Runner σ) (sql : List String) :
    (r.logged.runStatements sql).1 = (r.runStatements sql).1 ∧
      (r.logged.runStatements sql).2.1 = (r.runStatements sql).2 := by
  cases dry : r.dryRun with
  | true =>
      rw [runStatements_of_dry (r := r.logged) dry,
        runStatements_of_dry dry]
      exact ⟨rfl, rfl⟩
  | false =>
      rw [runStatements_of_real (r := r.logged) dry,
        runStatements_of_real dry]
      exact Executor.run_logged sql r.state []

/-- Nothing is handed over for a step that is out of order. -/
theorem handed_of_check_error {e : UpgradeError}
    (check : r.history.checkNext step = .error e) :
    r.handed now step = [] := by
  unfold handed
  rw [apply_of_check_error (r := r.logged) check]
  rfl

/-- Nothing is handed over for a step that cannot be planned. -/
theorem handed_of_plan_error {e : UpgradeError}
    (check : r.history.checkNext step = .ok ())
    (plan : r.planned step = .error e) : r.handed now step = [] := by
  unfold handed
  rw [apply_of_plan_error (r := r.logged) check plan]
  rfl

/-- What is handed over for a step that can be planned is what the run
of its statements writes down. -/
theorem handed_of_planned {statements : List Ddl} {next : Snapshot}
    (check : r.history.checkNext step = .ok ())
    (plan : r.planned step = .ok (statements, next)) :
    r.handed now step =
      (r.logged.runStatements
        (r.session.target.texts statements)).2.2 := by
  unfold handed
  cases run : r.logged.runStatements (r.session.target.texts statements)
    with
  | mk result state =>
      cases result with
      | error reason => rw [apply_of_refused (r := r.logged) check plan run]
      | ok u => rw [apply_of_accepted (r := r.logged) check plan run]

/-- A step comes to the same when what is handed over is written
down. -/
theorem apply_logged (r : Runner σ) (now : Instant)
    (step : UpgradeStep) :
    (r.logged.apply now step).1 = (r.apply now step).1 ∧
      (r.logged.apply now step).2.state.1 =
        (r.apply now step).2.state ∧
      (r.logged.apply now step).2.snapshot =
        (r.apply now step).2.snapshot ∧
      (r.logged.apply now step).2.history =
        (r.apply now step).2.history := by
  -- Both runs branch in the same way at each of the three points where a
  -- step may fail.
  rcases r.outcome_cases step with ⟨e, check⟩ | ⟨check, ⟨e, plan⟩ |
    ⟨statements, next, plan, run⟩⟩
  · rw [apply_of_check_error check,
      apply_of_check_error (r := r.logged) check]
    exact ⟨rfl, rfl, rfl, rfl⟩
  · rw [apply_of_plan_error check plan,
      apply_of_plan_error (r := r.logged) check plan]
    exact ⟨rfl, rfl, rfl, rfl⟩
  · obtain ⟨hresult, hstate⟩ :=
      r.runStatements_logged (r.session.target.texts statements)
    rcases run with ⟨reason, state, run⟩ | ⟨state, run⟩
    · rw [run] at hresult hstate
      rw [apply_of_refused check plan run,
        apply_of_refused (r := r.logged) check plan
          (Prod.ext hresult rfl)]
      exact ⟨rfl, hstate, rfl, rfl⟩
    · rw [run] at hresult hstate
      rw [apply_of_accepted check plan run,
        apply_of_accepted (r := r.logged) check plan
          (Prod.ext hresult rfl)]
      exact ⟨rfl, hstate, rfl, rfl⟩

/-! ### Previews -/

/-- Previews move neither the snapshot nor the history, and leave the
executor alone. -/
theorem previewed_eq (r : Runner σ) (steps : List UpgradeStep) :
    ∃ session : Session, session.target = r.session.target ∧
      r.previewed steps = { r with session := session } := by
  induction steps generalizing r with
  | nil => exact ⟨r.session, rfl, rfl⟩
  | cons step rest ih =>
      have hstep : (r.sqlFor step).2 =
          { r with session := r.sessionAfter step } := by
        rw [sqlFor_eq]
      -- The first preview leaves another session behind, which has the
      -- same target.
      obtain ⟨session, htarget, hrest⟩ := ih (r.sqlFor step).2
      refine ⟨session, ?_, ?_⟩
      · rw [htarget, hstep]
        exact Session.plan_target r.session r.snapshot step.edits
      · show (r.sqlFor step).2.previewed rest = _
        rw [hrest, hstep]

/-- What a step is planned as does not change by previews. -/
theorem planned_previewed (r : Runner σ) (previews : List UpgradeStep)
    (step : UpgradeStep) :
    (r.previewed previews).planned step = r.planned step := by
  obtain ⟨session, htarget, hr⟩ := r.previewed_eq previews
  rw [hr]
  -- A plan is made from the target of the session, not from its tables.
  show session.target.planEdits r.snapshot step.edits = _
  rw [htarget]
  rfl

/-- Previews leave no trace in a preview that follows them. -/
theorem sqlFor_previewed (r : Runner σ) (previews : List UpgradeStep)
    (step : UpgradeStep) :
    ((r.previewed previews).sqlFor step).1 = (r.sqlFor step).1 := by
  rw [sqlFor_eq, sqlFor_eq, planned_previewed]
  obtain ⟨session, htarget, hr⟩ := r.previewed_eq previews
  rw [hr]
  show (r.planned step).map (fun p => session.target.texts p.1) = _
  rw [htarget]

/-! ### All or nothing -/

/-- A step that cannot be planned fails before anything is run. -/
theorem failsWith_of_plan_error {e : UpgradeError}
    (check : r.history.checkNext step = .ok ())
    (plan : r.planned step = .error e) : r.FailsWith now step e := by
  rw [FailsWith, apply_of_plan_error check plan]
  exact ⟨rfl, rfl, rfl⟩

/-- A real run that is refused a statement fails with that. -/
theorem failsWith_of_refuses {statements : List Ddl} {next : Snapshot}
    {before after : List String} {sql reason : String}
    (real : r.dryRun = false) (check : r.history.checkNext step = .ok ())
    (plan : r.planned step = .ok (statements, next))
    (texts : r.session.target.texts statements = before ++ sql :: after)
    (refuses : r.execute.Refuses r.state before sql reason) :
    r.FailsWith now step (.executor step.id reason) ∧
      r.handed now step = before ++ [sql] := by
  have run : r.runStatements (r.session.target.texts statements) =
      (.error reason, (r.runStatements
        (r.session.target.texts statements)).2) := by
    refine Prod.ext ?_ rfl
    rw [runStatements_of_real real, texts]
    exact Executor.run_of_refuses refuses
  constructor
  · rw [FailsWith, apply_of_refused check plan run]
    exact ⟨rfl, rfl, rfl⟩
  · rw [handed_of_planned check plan,
      runStatements_of_real (r := r.logged) real, texts]
    show (r.execute.logged.run (before ++ sql :: after)
      (r.state, [])).2.2 = _
    rw [Executor.logged_run_of_refuses refuses, List.nil_append]

/-- A real run that succeeds has handed over what it gives. -/
theorem handed_of_apply_ok {sql : List String} (real : r.dryRun = false)
    (taken : (r.apply now step).1 = .ok sql) :
    r.handed now step = sql ∧ (r.sqlFor step).1 = .ok sql := by
  obtain ⟨check, statements, next, plan, rfl, run⟩ :=
    apply_fst_eq_ok_iff.mp taken
  constructor
  · rw [runStatements_of_real real] at run
    rw [handed_of_planned check plan,
      runStatements_of_real (r := r.logged) real]
    show (r.execute.logged.run _ (r.state, [])).2.2 = _
    rw [Executor.logged_run_of_ok (Prod.ext run rfl), List.nil_append]
  · exact sqlFor_fst_eq_ok_iff.mpr ⟨statements, next, plan, rfl⟩

/-- A dry run comes to what a preview does, and hands over nothing. -/
theorem apply_of_dry (dry : r.dryRun = true)
    (check : r.history.checkNext step = .ok ()) :
    (r.apply now step).1 = (r.sqlFor step).1 ∧
      r.handed now step = [] := by
  cases plan : r.planned step with
  | error e =>
      rw [apply_of_plan_error check plan, handed_of_plan_error check plan,
        sqlFor_fst_eq_error_iff.mpr plan]
      exact ⟨rfl, rfl⟩
  | ok p =>
      obtain ⟨statements, next⟩ := p
      rw [apply_of_accepted check plan (runStatements_of_dry dry _),
        handed_of_planned check plan,
        runStatements_of_dry (r := r.logged) dry,
        sqlFor_fst_eq_ok_iff.mpr ⟨statements, next, plan, rfl⟩]
      exact ⟨rfl, rfl⟩

/-- The runner in the same state that really runs its statements, on an
executor of its own. -/
def real {τ : Type} (r : Runner σ) (execute : Executor τ) (state : τ) :
    Runner τ :=
  { session := r.session, execute := execute, state := state
    snapshot := r.snapshot, history := r.history, dryRun := false }

/-- A dry run leaves what a real run leaves on an executor that refuses
nothing. -/
theorem apply_real_of_never {τ : Type} {execute : Executor τ} {state : τ}
    {later : Instant} (dry : r.dryRun = true)
    (check : r.history.checkNext step = .ok ())
    (never : ∀ text state, (execute text state).1 = .ok ()) :
    ((r.real execute state).apply later step).1 = (r.apply now step).1 ∧
      ((r.real execute state).apply later step).2.snapshot =
        (r.apply now step).2.snapshot ∧
      ((r.real execute state).apply later step).2.history.keys =
        (r.apply now step).2.history.keys := by
  -- Neither the check nor the plan sees what sets the two runners apart.
  have check' : (r.real execute state).history.checkNext step =
      .ok () := check
  cases plan : r.planned step with
  | error e =>
      have plan' : (r.real execute state).planned step = .error e := plan
      rw [apply_of_plan_error check plan,
        apply_of_plan_error check' plan']
      exact ⟨rfl, rfl, rfl⟩
  | ok p =>
      obtain ⟨statements, next⟩ := p
      have plan' : (r.real execute state).planned step =
          .ok (statements, next) := plan
      have run : (r.real execute state).runStatements
          (r.session.target.texts statements) =
            (.ok (), (execute.run
              (r.session.target.texts statements) state).2) :=
        Prod.ext (Executor.run_of_never never) rfl
      rw [apply_of_accepted check plan (runStatements_of_dry dry _),
        apply_of_accepted check' plan' run]
      exact ⟨rfl, rfl, by simp [real]⟩

/-- A step fails before anything is run, or after a prefix of its
statements has been run, or not at all. When it fails, the snapshot and
the history stay; when it is taken, the executor has been handed what
the step was previewed as. A dry run hands over nothing, and comes to
what a real run comes to on an executor that refuses nothing. -/
theorem apply_all_or_nothing (r : Runner σ) (now : Instant)
    (step : UpgradeStep) :
    (∀ e, r.history.checkNext step = .error e →
      r.FailsWith now step e ∧ r.handed now step = []) ∧
    (∀ e done edit rest statements reached,
      r.history.checkNext step = .ok () →
      step.edits = done ++ edit :: rest →
      r.session.target.planEdits r.snapshot done =
        .ok (statements, reached) →
      r.session.target.Refuses reached edit e →
      r.FailsWith now step e ∧ r.handed now step = []) ∧
    (∀ before sql after reason, r.dryRun = false →
      r.history.checkNext step = .ok () →
      (r.sqlFor step).1 = .ok (before ++ sql :: after) →
      r.execute.Refuses r.state before sql reason →
      r.FailsWith now step (.executor step.id reason) ∧
        r.handed now step = before ++ [sql]) ∧
    (∀ previews sql, r.dryRun = false →
      ((r.previewed previews).apply now step).1 = .ok sql →
      (r.previewed previews).handed now step = sql ∧
        (r.sqlFor step).1 = .ok sql ∧
        ((r.previewed previews).sqlFor step).1 = .ok sql) ∧
    (r.dryRun = true → r.history.checkNext step = .ok () →
      (r.apply now step).1 = (r.sqlFor step).1 ∧
      r.handed now step = [] ∧
      ∀ {τ : Type} (execute : Executor τ) (state : τ) (later : Instant),
        (∀ text state, (execute text state).1 = .ok ()) →
        ((r.real execute state).apply later step).1 =
            (r.apply now step).1 ∧
          ((r.real execute state).apply later step).2.snapshot =
            (r.apply now step).2.snapshot ∧
          ((r.real execute state).apply later step).2.history.keys =
            (r.apply now step).2.history.keys) := by
  refine ⟨?_, ?_, ?_, ?_, ?_⟩
  · -- The step is out of order.
    intro e check
    refine ⟨?_, handed_of_check_error check⟩
    rw [FailsWith, apply_of_check_error check]
    exact ⟨rfl, rfl, rfl⟩
  · -- An edit cannot be made, or cannot be written.
    intro e done edit rest statements reached check hsplit hdone hrefuses
    have plan : r.planned step = .error e :=
      Target.planEdits_eq_error_iff.mpr
        ⟨done, edit, rest, statements, reached, hsplit, hdone, hrefuses⟩
    exact ⟨failsWith_of_plan_error check plan,
      handed_of_plan_error check plan⟩
  · -- The executor refuses a statement.
    intro before sql after reason hreal check hsql hrefuses
    obtain ⟨statements, next, plan, texts⟩ :=
      sqlFor_fst_eq_ok_iff.mp hsql
    exact failsWith_of_refuses hreal check plan texts.symm hrefuses
  · -- The step is taken, whatever was previewed before it.
    intro previews sql hreal taken
    have hdry : (r.previewed previews).dryRun = false := by
      obtain ⟨session, -, hr⟩ := r.previewed_eq previews
      rw [hr]
      exact hreal
    obtain ⟨hhanded, hsql⟩ := handed_of_apply_ok hdry taken
    refine ⟨hhanded, ?_, hsql⟩
    rw [← sqlFor_previewed r previews step]
    exact hsql
  · -- The run is dry.
    intro dry check
    obtain ⟨happly, hhanded⟩ := apply_of_dry dry check
    exact ⟨happly, hhanded, fun execute state later never =>
      apply_real_of_never dry check never⟩

end Runner

/-! ### A step that is cut short -/

/-- Accepts as many statements as its state says, and refuses those
after them. -/
def Executor.upTo : Executor Nat := fun _ left =>
  if left = 0 then (.error "refused", 0) else (.ok (), left - 1)

/-- A step of two statements. -/
def createCurrency : UpgradeStep where
  id := "create-currency"
  sequence := 1
  edits :=
    [.addTable
      { name := "Currency"
        columns :=
          [{ name := "Code", type := .string, width := 3, inKey := true }] },
     .addIndex "Currency" { name := "ByCode", columns := ["Code"] }]

/-- The first second of the leap day of 2000. -/
def Calendar.Instant.leapDay : Instant where
  date := ⟨2000, 2, 29, by decide, by decide⟩
  second := 0
  nano := 0
  second_lt := by decide
  nano_lt := by decide
  leap := fun h => absurd h (by decide)
  inRange := by decide

/-- An upgrade that has yet to begin. -/
def beginning {σ : Type} (execute : Executor σ) (state : σ) : Runner σ :=
  { session := { target := { dialect := .ansi } }
    execute := execute, state := state }

/-- An executor that refuses the second statement has been handed both,
and nothing has moved. -/
theorem createCurrency_cut_short :
    (beginning Executor.upTo 1).FailsWith .leapDay createCurrency
        (.executor "create-currency" "refused") ∧
      (beginning Executor.upTo 1).handed .leapDay createCurrency =
        ["CREATE TABLE Currency (Code VARCHAR(3) NOT NULL, " ++
          "CONSTRAINT Currency_PK PRIMARY KEY (Code))",
         "CREATE INDEX ByCode ON Currency (Code)"] :=
  (Runner.apply_all_or_nothing _ _ _).2.2.1 [_] _ [] _ rfl rfl
    (toOption_eq_some_iff.mp (by decide +kernel)) ⟨0, rfl, rfl⟩

end SchemaEvolution

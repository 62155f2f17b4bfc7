import SchemaEvolution.Proofs.Upgrade.Snapshot
import SchemaEvolution.Upgrade.Runner

/-!
# `SchemaEvolution.Proofs.Upgrade.Runner`: what taking a step comes to

A session plans the edits of a step and keeps track of temporary tables
on the way. The statements do not hang on that: `Target.planEdits` plans
the same edits with nothing but a target, and `Session.plan_fst` shows
that it gives what the session gives. So a step is written the same way
in every session with that target.

* `Target.planEdits_eq_error_iff`: a plan fails at the first edit that
  is refused or that cannot be written.
* `Target.replay_of_planEdits`: a plan moves the snapshot as the edits
  alone do.
* `Runner.apply_of_check_error`, `apply_of_plan_error`,
  `apply_of_refused` and `apply_of_accepted`: the four things that
  taking a step can come to; `Runner.outcome_cases`: there is no fifth.
* `Runner.apply_fst_eq_ok_iff`: when a step is taken.
* `Runner.apply_frame_of_error`: a step that is not taken moves neither
  the snapshot nor the history.
-/

set_option autoImplicit false

namespace SchemaEvolution

open SchemaEvolution.Calendar

/-! ### Plans without a session -/

namespace Target

/-- The statements of edits that are made one after the other, and the
snapshot after them. -/
def planEdits (t : Target) (s : Snapshot) :
    List SchemaEdit → Except UpgradeError (List Ddl × Snapshot)
  | [] => .ok ([], s)
  | edit :: rest => do
      let (change, next) ← s.apply edit
      let statements ← (t.planChange change).mapError .dialect
      let (more, final) ← t.planEdits next rest
      return (statements ++ more, final)

/-- The edit cannot be made, or the change it amounts to cannot be
written. -/
def Refuses (t : Target) (s : Snapshot) (edit : SchemaEdit)
    (e : UpgradeError) : Prop :=
  s.apply edit = .error e ∨
    ∃ change next cause, s.apply edit = .ok (change, next) ∧
      t.planChange change = .error cause ∧ e = .dialect cause

variable {t : Target} {s final : Snapshot}

/-- An edit that is made and written stands before the rest of the
plan. -/
theorem planEdits_cons {edit : SchemaEdit} {rest : List SchemaEdit}
    {change : SchemaChange} {next : Snapshot} {statements : List Ddl}
    (hedit : s.apply edit = .ok (change, next))
    (hchange : t.planChange change = .ok statements) :
    t.planEdits s (edit :: rest) =
      (t.planEdits next rest).map fun p => (statements ++ p.1, p.2) := by
  simp only [planEdits, hedit, ok_bind, hchange, ok_mapError]
  cases t.planEdits next rest <;> rfl

/-- A plan is made edit by edit. -/
theorem planEdits_cons_eq_ok_iff {edit : SchemaEdit}
    {rest : List SchemaEdit} {all : List Ddl} :
    t.planEdits s (edit :: rest) = .ok (all, final) ↔
      ∃ change next statements more,
        s.apply edit = .ok (change, next) ∧
        t.planChange change = .ok statements ∧
        t.planEdits next rest = .ok (more, final) ∧
        all = statements ++ more := by
  simp only [planEdits, bind_eq_ok_iff, mapError_eq_ok_iff, pure_eq_ok,
    Except.ok.injEq, Prod.mk.injEq]
  constructor
  · rintro ⟨⟨change, next⟩, hedit, statements, hchange, ⟨more, final'⟩,
      hrest, hall, rfl⟩
    exact ⟨change, next, statements, more, hedit, hchange, hrest, hall.symm⟩
  · rintro ⟨change, next, statements, more, hedit, hchange, hrest, hall⟩
    exact ⟨(change, next), hedit, statements, hchange, (more, final),
      hrest, hall.symm, rfl⟩

/-- An edit that is refused ends the plan with its error. -/
theorem planEdits_cons_of_refuses {edit : SchemaEdit}
    {rest : List SchemaEdit} {e : UpgradeError}
    (h : t.Refuses s edit e) :
    t.planEdits s (edit :: rest) = .error e := by
  rcases h with hedit | ⟨change, next, cause, hedit, hchange, rfl⟩
  · simp only [planEdits, hedit, error_bind]
  · simp only [planEdits, hedit, ok_bind, hchange, error_mapError,
      error_bind]

/-- A plan fails when it can be made up to an edit that is refused, and
with the error of that edit. -/
theorem planEdits_eq_error_iff {edits : List SchemaEdit}
    {e : UpgradeError} :
    t.planEdits s edits = .error e ↔
      ∃ done edit rest statements reached,
        edits = done ++ edit :: rest ∧
        t.planEdits s done = .ok (statements, reached) ∧
        t.Refuses reached edit e := by
  constructor
  · intro h
    -- The first edit is at fault, or the plan of the rest fails.
    induction edits generalizing s with
    | nil => simp [planEdits] at h
    | cons edit rest ih =>
        cases hedit : s.apply edit with
        | error cause =>
            have hstuck : t.Refuses s edit cause := .inl hedit
            rw [planEdits_cons_of_refuses hstuck] at h
            cases h
            exact ⟨[], edit, rest, [], s, rfl, rfl, hstuck⟩
        | ok made =>
            obtain ⟨change, next⟩ := made
            cases hchange : t.planChange change with
            | error cause =>
                have hstuck : t.Refuses s edit (.dialect cause) :=
                  .inr ⟨change, next, cause, hedit, hchange, rfl⟩
                rw [planEdits_cons_of_refuses hstuck] at h
                cases h
                exact ⟨[], edit, rest, [], s, rfl, rfl, hstuck⟩
            | ok statements =>
                -- This edit is not at fault, so one of the rest is.
                rw [planEdits_cons hedit hchange, map_eq_error_iff] at h
                obtain ⟨done, stuck, rest', more, reached, rfl, hdone,
                  hstuck⟩ := ih h
                refine ⟨edit :: done, stuck, rest', statements ++ more,
                  reached, rfl, ?_, hstuck⟩
                rw [planEdits_cons hedit hchange, hdone]
                rfl
  · rintro ⟨done, edit, rest, statements, reached, rfl, hdone, hstuck⟩
    induction done generalizing s statements with
    | nil =>
        obtain ⟨-, rfl⟩ : [] = statements ∧ s = reached := by
          simpa [planEdits] using hdone
        exact planEdits_cons_of_refuses hstuck
    | cons first done ih =>
        obtain ⟨change, next, now, more, hedit, hchange, hmore, -⟩ :=
          planEdits_cons_eq_ok_iff.mp hdone
        rw [List.cons_append, planEdits_cons hedit hchange, ih more hmore]
        rfl

/-- A plan moves the snapshot as the edits alone do. -/
theorem replay_of_planEdits {edits : List SchemaEdit}
    {statements : List Ddl}
    (h : t.planEdits s edits = .ok (statements, final)) :
    s.replay edits = .ok final := by
  induction edits generalizing s statements with
  | nil =>
      obtain ⟨-, rfl⟩ : [] = statements ∧ s = final := by
        simpa [planEdits] using h
      rfl
  | cons edit rest ih =>
      obtain ⟨change, next, now, more, hedit, -, hrest, -⟩ :=
        planEdits_cons_eq_ok_iff.mp h
      rw [Snapshot.replay, hedit, ok_bind]
      exact ih hrest

end Target

namespace Session

/-- Planning does not touch the target. -/
@[simp]
theorem plan_target (s : Session) (snapshot : Snapshot)
    (edits : List SchemaEdit) :
    (s.plan snapshot edits).2.target = s.target := by
  induction edits generalizing s snapshot with
  | nil => rfl
  | cons edit rest ih =>
      unfold plan
      split
      · rfl
      · -- A change leaves the target of a session alone, written or not.
        rename_i change next _
        have hchange := s.change_target change
        split
        · rename_i hs
          rw [hs] at hchange
          exact hchange
        · rename_i statements s' hs
          rw [hs] at hchange
          have hrest := ih s' next
          split
          · rename_i hplan
            rw [hplan] at hrest
            exact hrest.trans hchange
          · rename_i hplan
            rw [hplan] at hrest
            exact hrest.trans hchange

/-- What a session plans hangs on its target alone, and not on the
temporary tables it remembers. -/
theorem plan_fst (s : Session) (snapshot : Snapshot)
    (edits : List SchemaEdit) :
    (s.plan snapshot edits).1 = s.target.planEdits snapshot edits := by
  induction edits generalizing s snapshot with
  | nil => rfl
  | cons edit rest ih =>
      unfold plan
      -- A session and a planner stop at the same edits, since what a change
      -- gives hangs on the target alone.
      cases hedit : snapshot.apply edit with
      | error e =>
          exact (Target.planEdits_cons_of_refuses (.inl hedit)).symm
      | ok made =>
          obtain ⟨change, next⟩ := made
          have hfst := s.change_fst change
          have htarget := s.change_target change
          cases hs : s.change change with
          | mk written s' =>
              rw [hs] at hfst htarget
              simp only [hs]
              cases written with
              | error cause =>
                  exact (Target.planEdits_cons_of_refuses
                    (.inr ⟨change, next, cause, hedit, hfst.symm, rfl⟩)).symm
              | ok statements =>
                  rw [Target.planEdits_cons hedit hfst.symm, ← htarget,
                    ← ih s' next]
                  cases hplan : s'.plan next rest with
                  | mk planned s'' => cases planned <;> simp only [hplan] <;> rfl

/-- A plan in the form the runner takes it. -/
theorem plan_eq (s : Session) (snapshot : Snapshot)
    (edits : List SchemaEdit) :
    s.plan snapshot edits =
      (s.target.planEdits snapshot edits, (s.plan snapshot edits).2) := by
  rw [← plan_fst]

end Session

/-! ### Names and numbers of steps -/

/-- What a step is known by once it has been taken: its name and its
number. -/
def UpgradeStep.key (step : UpgradeStep) : String × UInt64 :=
  (step.id, step.sequence)

/-- What a step that has been taken is known by. -/
def AppliedStep.key (a : AppliedStep) : String × UInt64 :=
  (a.id, a.sequence)

/-- The names and numbers of the steps that have been taken. -/
def History.keys (h : History) : List (String × UInt64) :=
  h.applied.map AppliedStep.key

@[simp]
theorem History.keys_record (h : History) (step : UpgradeStep)
    (now : Instant) : (h.record step now).keys = h.keys ++ [step.key] := by
  simp [keys, record, AppliedStep.key, UpgradeStep.key]

/-! ### What taking a step comes to -/

namespace Runner

variable {σ : Type} {r : Runner σ} {now : Instant} {step : UpgradeStep}

/-- The plan of a step in the state that the runner is in. -/
def planned (r : Runner σ) (step : UpgradeStep) :
    Except UpgradeError (List Ddl × Snapshot) :=
  r.session.target.planEdits r.snapshot step.edits

/-- The session after a step has been planned. -/
def sessionAfter (r : Runner σ) (step : UpgradeStep) : Session :=
  (r.session.plan r.snapshot step.edits).2

theorem sqlFor_eq (r : Runner σ) (step : UpgradeStep) :
    r.sqlFor step =
      ((r.planned step).map fun p => r.session.target.texts p.1,
        { r with session := r.sessionAfter step }) := by
  unfold sqlFor
  rw [Session.plan_eq]
  simp only [Session.plan_target]
  rfl

/-- A preview gives the texts of the plan. -/
theorem sqlFor_fst_eq_ok_iff {sql : List String} :
    (r.sqlFor step).1 = .ok sql ↔
      ∃ statements next, r.planned step = .ok (statements, next) ∧
        sql = r.session.target.texts statements := by
  rw [sqlFor_eq]
  cases r.planned step with
  | error e => simp [Except.map]
  | ok p => simp [Except.map, Prod.ext_iff, eq_comm]

/-- A preview fails as the plan does. -/
theorem sqlFor_fst_eq_error_iff {e : UpgradeError} :
    (r.sqlFor step).1 = .error e ↔ r.planned step = .error e := by
  rw [sqlFor_eq]
  cases r.planned step <;> simp [Except.map]

/-- A step out of order is not looked at any further. -/
theorem apply_of_check_error {e : UpgradeError}
    (check : r.history.checkNext step = .error e) :
    r.apply now step = (.error e, r) := by
  simp only [apply, check]

/-- A step that cannot be planned leaves only its traces among the
temporary tables. -/
theorem apply_of_plan_error {e : UpgradeError}
    (check : r.history.checkNext step = .ok ())
    (plan : r.planned step = .error e) :
    r.apply now step =
      (.error e, { r with session := r.sessionAfter step }) := by
  unfold apply
  rw [check, Session.plan_eq]
  simp only [← planned.eq_1, plan]
  rfl

/-- A step that the executor cuts short moves the executor, and not the
snapshot or the history. -/
theorem apply_of_refused {statements : List Ddl} {next : Snapshot}
    {reason : String} {state : σ}
    (check : r.history.checkNext step = .ok ())
    (plan : r.planned step = .ok (statements, next))
    (run : r.runStatements (r.session.target.texts statements) =
      (.error reason, state)) :
    r.apply now step =
      (.error (.executor step.id reason),
        { r with session := r.sessionAfter step, state := state }) := by
  unfold apply
  rw [check, Session.plan_eq]
  simp only [← planned.eq_1, plan, Session.plan_target, run]
  rfl

/-- A step whose statements have all gone through is taken. -/
theorem apply_of_accepted {statements : List Ddl} {next : Snapshot}
    {state : σ} (check : r.history.checkNext step = .ok ())
    (plan : r.planned step = .ok (statements, next))
    (run : r.runStatements (r.session.target.texts statements) =
      (.ok (), state)) :
    r.apply now step =
      (.ok (r.session.target.texts statements),
        { r with
          session := r.sessionAfter step
          state := state
          snapshot := next
          history := r.history.record step now }) := by
  unfold apply
  rw [check, Session.plan_eq]
  simp only [← planned.eq_1, plan, Session.plan_target, run]
  rfl

/-- There are no more than these four: the step is out of order, it
cannot be planned, one of its statements is refused, or all of them go
through. -/
theorem outcome_cases (r : Runner σ) (step : UpgradeStep) :
    (∃ e, r.history.checkNext step = .error e) ∨
    r.history.checkNext step = .ok () ∧
      ((∃ e, r.planned step = .error e) ∨
      ∃ statements next, r.planned step = .ok (statements, next) ∧
        ((∃ reason state,
          r.runStatements (r.session.target.texts statements) =
            (.error reason, state)) ∨
        ∃ state, r.runStatements (r.session.target.texts statements) =
          (.ok (), state))) := by
  cases check : r.history.checkNext step with
  | error e => exact .inl ⟨e, rfl⟩
  | ok u =>
      refine .inr ⟨rfl, ?_⟩
      cases plan : r.planned step with
      | error e => exact .inl ⟨e, rfl⟩
      | ok p =>
          refine .inr ⟨p.1, p.2, rfl, ?_⟩
          cases run : r.runStatements (r.session.target.texts p.1) with
          | mk result state =>
              cases result with
              | error reason => exact .inl ⟨reason, state, rfl⟩
              | ok u => exact .inr ⟨state, rfl⟩

/-- A step is taken when it comes next, can be planned and has its
statements run. -/
theorem apply_fst_eq_ok_iff {sql : List String} :
    (r.apply now step).1 = .ok sql ↔
      r.history.checkNext step = .ok () ∧
        ∃ statements next, r.planned step = .ok (statements, next) ∧
          sql = r.session.target.texts statements ∧
          (r.runStatements sql).1 = .ok () := by
  constructor
  · intro h
    rcases r.outcome_cases step with ⟨e, check⟩ | ⟨check, ⟨e, plan⟩ |
      ⟨statements, next, plan, ⟨reason, state, run⟩ | ⟨state, run⟩⟩⟩
    · rw [apply_of_check_error check] at h
      cases h
    · rw [apply_of_plan_error check plan] at h
      cases h
    · rw [apply_of_refused check plan run] at h
      cases h
    · rw [apply_of_accepted check plan run] at h
      cases h
      exact ⟨check, statements, next, plan, rfl, by rw [run]⟩
  · rintro ⟨check, statements, next, plan, rfl, run⟩
    rw [apply_of_accepted check plan (Prod.ext run rfl)]

/-- A step that is not taken moves neither the snapshot nor the
history. -/
theorem apply_frame_of_error {e : UpgradeError}
    (h : (r.apply now step).1 = .error e) :
    (r.apply now step).2.snapshot = r.snapshot ∧
      (r.apply now step).2.history = r.history := by
  rcases r.outcome_cases step with ⟨cause, check⟩ | ⟨check, ⟨cause, plan⟩ |
    ⟨statements, next, plan, ⟨reason, state, run⟩ | ⟨state, run⟩⟩⟩
  · rw [apply_of_check_error check]
    exact ⟨rfl, rfl⟩
  · rw [apply_of_plan_error check plan]
    exact ⟨rfl, rfl⟩
  · rw [apply_of_refused check plan run]
    exact ⟨rfl, rfl⟩
  · rw [apply_of_accepted check plan run] at h
    cases h

end Runner

end SchemaEvolution

import SchemaEvolution.Proofs.Upgrade.Calls

/-!
# `SchemaEvolution.Proofs.Upgrade.Plans`: plans that follow one another

The steps of an upgrade are planned one by one, and each from the
snapshot that the last one left. The lemmas here put such plans
together: the edits of all steps that are taken can be planned in one
go, and what is asked of each edit can be asked of all of them.

* `Snapshot.Along`: each of the edits suits the snapshot that it meets.
* `Target.planEdits_append`: edits are planned in two parts.
* `Session.plan_snd_cons`: what the session is after the first edit.
* `Runner.apply_eq_of_ok`: what a step that is taken leaves behind.
* `Runner.applyAll_cons_eq_ok_iff`: steps are taken when the first is and
  the rest are.
* `Runner.handed_calls`: what an executor that refuses nothing has been
  handed in all calls is the texts of one plan.
-/

set_option autoImplicit false

namespace SchemaEvolution

open SchemaEvolution.Calendar

/-! ### Edits and the snapshots that they meet -/

namespace Snapshot

/-- The edits are made one after the other, and `P` holds of each of them
and the snapshot that it meets. An edit that is refused is met by none
of those after it. -/
def Along (P : Snapshot → SchemaEdit → Prop) (s : Snapshot) :
    List SchemaEdit → Prop
  | [] => True
  | edit :: rest =>
      P s edit ∧ ∀ change next, s.apply edit = .ok (change, next) →
        next.Along P rest

variable {P : Snapshot → SchemaEdit → Prop} {s : Snapshot}

theorem along_cons_of_ok {edit : SchemaEdit} {rest : List SchemaEdit}
    {change : SchemaChange} {next : Snapshot}
    (h : s.apply edit = .ok (change, next)) :
    s.Along P (edit :: rest) ↔ P s edit ∧ next.Along P rest := by
  simp [Along, h]

theorem along_cons_of_error {edit : SchemaEdit} {rest : List SchemaEdit}
    {e : UpgradeError} (h : s.apply edit = .error e) :
    s.Along P (edit :: rest) ↔ P s edit := by
  simp [Along, h]

instance decidableAlong [∀ s edit, Decidable (P s edit)] :
    (s : Snapshot) → (edits : List SchemaEdit) →
      Decidable (s.Along P edits)
  | _, [] => .isTrue trivial
  | s, edit :: rest =>
      match h : s.apply edit with
      | .error _ => decidable_of_iff _ (along_cons_of_error h).symm
      | .ok (_, next) =>
          have := decidableAlong next rest
          decidable_of_iff _ (along_cons_of_ok h).symm

/-- The edits after those that were made meet the snapshot that these
have left. -/
theorem along_append_iff {done more : List SchemaEdit}
    {reached : Snapshot} (h : s.replay done = .ok reached) :
    s.Along P (done ++ more) ↔ s.Along P done ∧ reached.Along P more := by
  induction done generalizing s with
  | nil =>
      obtain rfl : s = reached := by simpa [replay] using h
      simp [Along]
  | cons edit rest ih =>
      obtain ⟨⟨change, next⟩, hedit, hrest⟩ := bind_eq_ok_iff.mp h
      rw [List.cons_append, along_cons_of_ok hedit, along_cons_of_ok hedit,
        ih hrest, and_assoc]

end Snapshot

/-! ### Plans in two parts -/

namespace Target

variable {t : Target} {s final : Snapshot}

/-- Edits are planned in two parts, the second from where the first has
led. -/
theorem planEdits_append {xs ys : List SchemaEdit} :
    t.planEdits s (xs ++ ys) =
      t.planEdits s xs >>= fun p =>
        (t.planEdits p.2 ys).map fun q => (p.1 ++ q.1, q.2) := by
  induction xs generalizing s with
  | nil =>
      rw [List.nil_append, planEdits, ok_bind]
      cases t.planEdits s ys <;> rfl
  | cons edit rest ih =>
      simp only [List.cons_append, planEdits, ih, bind_assoc]
      congr 1
      funext made
      obtain ⟨change, next⟩ := made
      congr 1
      funext statements
      congr 1
      funext planned
      obtain ⟨more, reached⟩ := planned
      simp only [pure_bind]
      cases t.planEdits reached ys with
      | error e => rfl
      | ok q => simp [Except.map, List.append_assoc]

/-- Plans that were made one after the other make one plan. -/
theorem planEdits_append_of_ok {xs ys : List SchemaEdit}
    {reached : Snapshot} {first more : List Ddl}
    (hxs : t.planEdits s xs = .ok (first, reached))
    (hys : t.planEdits reached ys = .ok (more, final)) :
    t.planEdits s (xs ++ ys) = .ok (first ++ more, final) := by
  rw [planEdits_append, hxs, ok_bind, hys]
  rfl

/-- The texts of two lists of statements stand one behind the other. -/
theorem texts_append (t : Target) (xs ys : List Ddl) :
    t.texts (xs ++ ys) = t.texts xs ++ t.texts ys :=
  List.map_append

end Target

namespace Session

/-- The first edit leaves the session for the rest of the plan. -/
theorem plan_snd_cons {s : Session} {snapshot next : Snapshot}
    {edit : SchemaEdit} {rest : List SchemaEdit} {change : SchemaChange}
    {statements : List Ddl}
    (hedit : snapshot.apply edit = .ok (change, next))
    (hchange : s.target.planChange change = .ok statements) :
    (s.plan snapshot (edit :: rest)).2 =
      (Session.plan { s with temporary := change.remember s.temporary }
        next rest).2 := by
  rw [plan]
  simp only [hedit, Session.change, hchange]
  split
  · rename_i h
    rw [h]
  · rename_i h
    rw [h]

end Session

/-! ### Steps that are taken -/

namespace Runner

variable {σ : Type} {r : Runner σ}

/-- A step that is taken leaves the snapshot of its plan and is recorded.
What it gives is the text of the plan, and this is what was run. -/
theorem apply_eq_of_ok {now : Instant} {step : UpgradeStep}
    {sql : List String} (taken : (r.apply now step).1 = .ok sql) :
    ∃ statements next, r.planned step = .ok (statements, next) ∧
      sql = r.session.target.texts statements ∧
      r.apply now step =
        (.ok sql,
          { r with
            session := r.sessionAfter step
            state := (r.runStatements sql).2
            snapshot := next
            history := r.history.record step now }) := by
  obtain ⟨check, statements, next, plan, rfl, run⟩ :=
    apply_fst_eq_ok_iff.mp taken
  exact ⟨statements, next, plan, rfl,
    apply_of_accepted check plan (Prod.ext run rfl)⟩

/-- Steps are taken when the first is and the others are after it. -/
theorem applyAll_cons_eq_ok_iff {now : UpgradeStep → Instant}
    {step : UpgradeStep} {rest : List UpgradeStep} {sql : List String} :
    (r.applyAll now (step :: rest)).1 = .ok sql ↔
      ∃ first more, (r.apply (now step) step).1 = .ok first ∧
        ((r.apply (now step) step).2.applyAll now rest).1 = .ok more ∧
        sql = first ++ more := by
  cases hstep : r.apply (now step) step with
  | mk result next =>
      cases result with
      | error e => simp [applyAll_cons_of_error hstep]
      | ok first =>
          rw [applyAll_cons_of_ok hstep]
          cases (next.applyAll now rest).1 <;> simp [Except.map, eq_comm]

/-! ### What has been handed over -/

/-- No step touches what a runner is set up with. -/
theorem apply_setup (r : Runner σ) (now : Instant) (step : UpgradeStep) :
    (r.apply now step).2.session.target = r.session.target ∧
      (r.apply now step).2.execute = r.execute ∧
      (r.apply now step).2.dryRun = r.dryRun := by
  have htarget : (r.sessionAfter step).target = r.session.target :=
    Session.plan_target r.session r.snapshot step.edits
  rcases r.outcome_cases step with ⟨e, check⟩ | ⟨check, ⟨e, plan⟩ |
    ⟨statements, next, plan, ⟨reason, state, run⟩ | ⟨state, run⟩⟩⟩
  · rw [apply_of_check_error check]
    exact ⟨rfl, rfl, rfl⟩
  · rw [apply_of_plan_error check plan]
    exact ⟨htarget, rfl, rfl⟩
  · rw [apply_of_refused check plan run]
    exact ⟨htarget, rfl, rfl⟩
  · rw [apply_of_accepted check plan run]
    exact ⟨htarget, rfl, rfl⟩

/-- Statements go through an executor that refuses nothing, and they go
through a dry run. -/
theorem runStatements_of_never
    (never : ∀ text state, (r.execute text state).1 = .ok ())
    (sql : List String) : (r.runStatements sql).1 = .ok () := by
  unfold runStatements
  split
  · rfl
  · exact Executor.run_of_never never

/-- A step that fails on an executor that refuses nothing has handed
nothing over. -/
theorem apply_state_of_error {now : Instant} {step : UpgradeStep}
    {e : UpgradeError}
    (never : ∀ text state, (r.execute text state).1 = .ok ())
    (fails : (r.apply now step).1 = .error e) :
    (r.apply now step).2.state = r.state := by
  rcases r.outcome_cases step with ⟨cause, check⟩ | ⟨check, ⟨cause, plan⟩ |
    ⟨statements, next, plan, ⟨reason, state, run⟩ | ⟨state, run⟩⟩⟩
  · rw [apply_of_check_error check]
  · rw [apply_of_plan_error check plan]
  · have hok := runStatements_of_never never
      (r.session.target.texts statements)
    rw [run] at hok
    cases hok
  · rw [apply_of_accepted check plan run] at fails
    cases fails

/-- Whatever is asked of a runner, an executor that refuses nothing has
been handed the texts of one plan: that of the edits of all steps that
were taken. -/
theorem handed_calls (r : Runner σ) (real : r.dryRun = false)
    (never : ∀ text state, (r.execute text state).1 = .ok ())
    (cs : List Call) :
    ∃ statements,
      r.session.target.planEdits r.snapshot
          ((r.logged.takenIn cs).flatMap UpgradeStep.edits) =
        .ok (statements, (r.logged.calls cs).snapshot) ∧
      (r.logged.calls cs).state.2 = r.session.target.texts statements := by
  -- What does not change on the way is kept beside what is to be shown.
  let motive (steps : List UpgradeStep) (s : Runner (σ × List String)) :
      Prop :=
    s.session.target = r.session.target ∧ s.execute = r.execute.logged ∧
      s.dryRun = false ∧ ∃ statements,
        r.session.target.planEdits r.snapshot
          (steps.flatMap UpgradeStep.edits) =
            .ok (statements, s.snapshot) ∧
        s.state.2 = r.session.target.texts statements
  suffices h : motive ([] ++ r.logged.takenIn cs) (r.logged.calls cs) by
    exact h.2.2.2
  refine calls_induction (motive := motive) ?_ ?_ ?_ cs
  · rintro steps s now step sql ⟨htarget, hexecute, hreal, statements,
      hplan, hstate⟩ taken
    obtain ⟨hsetup, hsetup', hsetup''⟩ := s.apply_setup now step
    refine ⟨hsetup.trans htarget, hsetup'.trans hexecute,
      hsetup''.trans hreal, ?_⟩
    obtain ⟨more, next, hmore, rfl, hstep⟩ := apply_eq_of_ok taken
    rw [planned, htarget] at hmore
    rw [hstep]
    refine ⟨statements ++ more, ?_, ?_⟩
    · rw [List.flatMap_append, List.flatMap_singleton]
      exact Target.planEdits_append_of_ok hplan hmore
    · show (s.runStatements _).2.2 = _
      have hrun : r.execute.run (s.session.target.texts more) s.state.1 =
          (.ok (), _) := Prod.ext (Executor.run_of_never never) rfl
      rw [runStatements_of_real hreal, hexecute,
        show s.state = (s.state.1, s.state.2) from rfl,
        Executor.logged_run_of_ok hrun, hstate, Target.texts_append,
        htarget]
  · rintro steps s now step e ⟨htarget, hexecute, hreal, hplan⟩ fails
    have hnever : ∀ text state, (s.execute text state).1 = .ok () := by
      rw [hexecute]
      exact fun text state => never text state.1
    obtain ⟨hsetup, hsetup', hsetup''⟩ := s.apply_setup now step
    refine ⟨hsetup.trans htarget, hsetup'.trans hexecute,
      hsetup''.trans hreal, ?_⟩
    rw [apply_state_of_error hnever fails, (apply_frame_of_error fails).1]
    exact hplan
  · exact ⟨rfl, rfl, real, [], rfl, rfl⟩

end Runner

/-- An executor that accepts every statement. -/
def Executor.willing : Executor Unit := fun _ state => (.ok (), state)

/-- Renames a table. -/
def renameCurrency : UpgradeStep where
  id := "rename-currency"
  sequence := 2
  edits := [.renameTable "Currency" "Money"]

end SchemaEvolution

import SchemaEvolution.Proofs.Upgrade.Format
import SchemaEvolution.Proofs.Upgrade.Plans

/-!
# `SchemaEvolution.Proofs.Upgrade.Resume`: going on in another run

An upgrade can stop after some of its steps, and another run can go on
with what the first has kept: the texts of its snapshot and of its
history. Two runners are `Alike` when they write for one target, have
reached one snapshot, and have taken steps of the same names and numbers.
What a step comes to hangs on nothing else while no statement is refused:
not on the temporary tables that a session remembers, nor on the time at
which a step was taken, nor on the executor.

* `History.checkNext_congr`: what step may come next hangs on the names
  and numbers of those that were taken.
* `Runner.Alike.apply`: a step comes to the same in runners that are
  alike, and leaves them alike.
* `Runner.Alike.applyAll`: so do steps that are taken one after the other.
* `Runner.applyAll_frame`: the snapshot of a run stays well-formed, so
  that it can be read again.
* `Runner.exists_resume_alike`: what a run has kept is read, and as what
  it was.
* `Runner.resume_transparent`: a run that is stopped and gone on with
  comes to what it would have come to without the stop.
-/

set_option autoImplicit false

namespace SchemaEvolution

open SchemaEvolution.Calendar

/-! ### Histories with the same names and numbers -/

namespace History

theorem isApplied_iff_mem_keys {h : History} {id : String} :
    h.IsApplied id ↔ id ∈ h.keys.map Prod.fst := by
  simp [IsApplied, keys, AppliedStep.key]

theorem lastSequence?_eq_keys (h : History) :
    h.lastSequence? = h.keys.getLast?.map Prod.snd := by
  rw [lastSequence?, keys, List.getLast?_map, Option.map_map]
  rfl

/-- What step may come next hangs on the names and numbers of those that
were taken, and not on when they were. -/
theorem checkNext_congr {h h' : History} (same : h.keys = h'.keys)
    (step : UpgradeStep) : h.checkNext step = h'.checkNext step := by
  simp only [checkNext, isApplied_iff_mem_keys, lastSequence?_eq_keys,
    same]

end History

/-! ### Runners that are alike -/

namespace Runner

variable {σ τ : Type}

/-- The two runners write for one target, have reached one snapshot, and
have taken steps of the same names and numbers. -/
structure Alike (r : Runner σ) (s : Runner τ) : Prop where
  target : r.session.target = s.session.target
  snapshot : r.snapshot = s.snapshot
  keys : r.history.keys = s.history.keys

section

variable {r : Runner σ} {s : Runner τ}
  (hr : ∀ text state, (r.execute text state).1 = .ok ())
  (hs : ∀ text state, (s.execute text state).1 = .ok ())

include hr hs

/-- A step comes to the same in runners that are alike, and leaves them
alike. -/
theorem Alike.apply (h : r.Alike s) (now now' : Instant)
    (step : UpgradeStep) :
    (r.apply now step).1 = (s.apply now' step).1 ∧
      (r.apply now step).2.Alike (s.apply now' step).2 := by
  have htarget : (r.sessionAfter step).target =
      (s.sessionAfter step).target := by
    rw [sessionAfter, sessionAfter, Session.plan_target,
      Session.plan_target, h.target]
  have hcheck := History.checkNext_congr h.keys step
  have hplan : r.planned step = s.planned step := by
    rw [planned, planned, h.target, h.snapshot]
  cases check : r.history.checkNext step with
  | error e =>
      rw [apply_of_check_error check,
        apply_of_check_error (hcheck.symm.trans check)]
      exact ⟨rfl, h⟩
  | ok u =>
      cases plan : r.planned step with
      | error e =>
          rw [apply_of_plan_error check plan,
            apply_of_plan_error (hcheck.symm.trans check)
              (hplan.symm.trans plan)]
          exact ⟨rfl, htarget, h.snapshot, h.keys⟩
      | ok p =>
          -- Nothing is refused, so the step is taken in both.
          rw [apply_of_accepted check plan
              (Prod.ext (runStatements_of_never hr _) rfl),
            apply_of_accepted (hcheck.symm.trans check)
              (hplan.symm.trans plan)
              (Prod.ext (runStatements_of_never hs _) rfl)]
          refine ⟨by rw [h.target], htarget, rfl, ?_⟩
          rw [History.keys_record, History.keys_record, h.keys]

/-- So do steps that are taken one after the other. -/
theorem Alike.applyAll (h : r.Alike s) (now now' : UpgradeStep → Instant)
    (steps : List UpgradeStep) :
    (r.applyAll now steps).1 = (s.applyAll now' steps).1 ∧
      (r.applyAll now steps).2.Alike (s.applyAll now' steps).2 := by
  induction steps generalizing r s with
  | nil => exact ⟨rfl, h⟩
  | cons step rest ih =>
      obtain ⟨hfst, hlike⟩ := h.apply hr hs (now step) (now' step) step
      have hr' := (r.apply_setup (now step) step).2.1
      have hs' := (s.apply_setup (now' step) step).2.1
      -- Both runners make the same of the step, so they fail together or go
      -- on alike.
      cases hrun : r.apply (now step) step with
      | mk result next =>
          cases hrun' : s.apply (now' step) step with
          | mk result' next' =>
              rw [hrun] at hfst hlike hr'
              rw [hrun'] at hfst hlike hs'
              obtain rfl : result = result' := hfst
              cases result with
              | error e =>
                  rw [applyAll_cons_of_error hrun,
                    applyAll_cons_of_error hrun']
                  exact ⟨rfl, hlike⟩
              | ok sql =>
                  obtain ⟨hgiven, hfinal⟩ := ih
                    (by rw [hr']; exact hr) (by rw [hs']; exact hs) hlike
                  rw [applyAll_cons_of_ok hrun, applyAll_cons_of_ok hrun',
                    hgiven]
                  exact ⟨rfl, hfinal⟩

end

/-! ### From one run to the next -/

/-- No step breaks the snapshot, whether it is taken or fails. -/
theorem wellFormed_apply {r : Runner σ} (wf : r.snapshot.WellFormed)
    (now : Instant) (step : UpgradeStep) :
    (r.apply now step).2.snapshot.WellFormed := by
  cases hstep : (r.apply now step).1 with
  | error e =>
      rw [(apply_frame_of_error hstep).1]
      exact wf
  | ok sql =>
      obtain ⟨statements, next, plan, -, htaken⟩ := apply_eq_of_ok hstep
      rw [htaken]
      exact wf.replay (Target.replay_of_planEdits plan)

/-- Nor do steps that are taken one after the other, and they leave alone
what the runner is set up with. -/
theorem applyAll_frame {r : Runner σ} (wf : r.snapshot.WellFormed)
    (now : UpgradeStep → Instant) (steps : List UpgradeStep) :
    (r.applyAll now steps).2.session.target = r.session.target ∧
      (r.applyAll now steps).2.execute = r.execute ∧
      (r.applyAll now steps).2.snapshot.WellFormed := by
  induction steps generalizing r with
  | nil => exact ⟨rfl, rfl, wf⟩
  | cons step rest ih =>
      obtain ⟨htarget, hexecute, -⟩ := r.apply_setup (now step) step
      have hwf := wellFormed_apply wf (now step) step
      cases hstep : r.apply (now step) step with
      | mk result next =>
          rw [hstep] at htarget hexecute hwf
          cases result with
          | error e =>
              rw [applyAll_cons_of_error hstep]
              exact ⟨htarget, hexecute, hwf⟩
          | ok sql =>
              obtain ⟨htarget', hexecute', hwf'⟩ := ih hwf
              rw [applyAll_cons_of_ok hstep]
              exact ⟨htarget'.trans htarget, hexecute'.trans hexecute, hwf'⟩

/-- The runner of another run, which writes for this target, remembers no
temporary tables, and goes on with what is read from the texts of this
one. -/
def resume (r : Runner σ) (target : Target) (execute : Executor τ)
    (state : τ) (dryRun : Bool) : Except UpgradeError (Runner τ) := do
  let snapshot ← Snapshot.ofText r.snapshot.toText
  let history ← History.ofText r.history.toText
  return { session := { target }, execute, state, snapshot, history, dryRun }

/-- What a run has kept is read when its snapshot is well-formed, and the
runner that goes on with it is alike. -/
theorem exists_resume_alike {r : Runner σ} (wf : r.snapshot.WellFormed)
    {target : Target} (same : r.session.target = target)
    (execute : Executor τ) (state : τ) (dryRun : Bool) :
    ∃ next, r.resume target execute state dryRun = .ok next ∧
      next.execute = execute ∧ next.Alike r := by
  rw [resume, Snapshot.ofText_toText_eq_ok_iff.mpr ⟨wf, rfl⟩, ok_bind,
    History.ofText_toText, ok_bind]
  exact ⟨_, rfl, rfl, same.symm, rfl, rfl⟩

/-- A run that is stopped and gone on with comes to what it would have
come to without the stop. The texts that the first run has kept are read,
and what another run gives for the steps `ys` is what the first would
have given: the same statements or the same error, the same snapshot,
and a history of the same names and numbers. -/
theorem resume_transparent {r : Runner σ}
    (start : r.snapshot = {} ∨
      ∃ text, Snapshot.ofText text = .ok r.snapshot)
    (never : ∀ text state, (r.execute text state).1 = .ok ())
    (execute : Executor τ)
    (never' : ∀ text state, (execute text state).1 = .ok ())
    (state : τ) (dryRun : Bool) (now later later' : UpgradeStep → Instant)
    (xs ys : List UpgradeStep) :
    let first := (r.applyAll now xs).2
    ∃ second,
      first.resume r.session.target execute state dryRun = .ok second ∧
        (second.applyAll later' ys).1 = (first.applyAll later ys).1 ∧
        (second.applyAll later' ys).2.snapshot =
          (first.applyAll later ys).2.snapshot ∧
        (second.applyAll later' ys).2.history.keys =
          (first.applyAll later ys).2.history.keys := by
  intro first
  have wf : r.snapshot.WellFormed := by
    rcases start with hempty | ⟨text, hread⟩
    · rw [hempty]
      exact Snapshot.wellFormed_empty
    · exact Snapshot.wellFormed_of_ofText hread
  obtain ⟨htarget, hexecute, hwf⟩ := applyAll_frame wf now xs
  obtain ⟨second, hresume, hexecute', halike⟩ :=
    exists_resume_alike hwf htarget execute state dryRun
  -- The two are alike before the steps `ys`, so they are after them.
  obtain ⟨hgiven, hfinal⟩ := halike.applyAll
    (by rw [hexecute']; exact never') (by rw [hexecute]; exact never)
    later' later ys
  exact ⟨second, hresume, hgiven, hfinal.snapshot, hfinal.keys⟩

end Runner

/-- The other run finds the table, its spelling and its key. -/
theorem resume_currency :
    let now : UpgradeStep → Instant := fun _ => .leapDay
    let first :=
      ((beginning Executor.willing ()).applyAll now [createCurrency]).2
    ∃ second,
      first.resume { dialect := .ansi } Executor.willing () false =
          .ok second ∧
        (second.applyAll now [renameCurrency]).1 =
          .ok ["ALTER TABLE Currency DROP CONSTRAINT Currency_PK",
            "ALTER TABLE Currency RENAME TO Money",
            "ALTER TABLE Money ADD CONSTRAINT Money_PK " ++
              "PRIMARY KEY (Code)"] := by
  intro now first
  obtain ⟨second, hresume, hgiven, -, -⟩ := Runner.resume_transparent
    (r := beginning Executor.willing ()) (.inl rfl) (fun _ _ => rfl)
    Executor.willing (fun _ _ => rfl) () false now now now
    [createCurrency] [renameCurrency]
  refine ⟨second, hresume, hgiven.trans ?_⟩
  exact toOption_eq_some_iff.mp (by decide +kernel)

end SchemaEvolution

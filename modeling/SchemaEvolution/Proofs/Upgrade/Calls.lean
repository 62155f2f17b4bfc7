import SchemaEvolution.Proofs.Upgrade.Atomicity

/-!
# `SchemaEvolution.Proofs.Upgrade.Calls`: an upgrade over all of its calls

A caller takes steps one by one or several at a time, and may go on
after a step has failed. `Runner.calls` is the runner after a list of
such calls, and `Runner.takenIn` are the steps that were taken on the
way.

`Runner.Follows` is what holds between the runner at the beginning and
the runner after any of the calls. A call that takes a step keeps it
(`Follows.apply_of_ok`), and one that fails keeps it because it moves
neither the snapshot nor the history (`Follows.apply_of_error`).

* `History.Ordered.record`: a history stays in order when a step is
  recorded that may come next.
* `Runner.calls_induction`: what a step keeps, taken or failed, is kept
  by all calls.
* `Follows.apply_of_ok`, `Follows.apply_of_error`: what one step keeps.
* `Runner.follows_calls`: what all calls keep.
-/

set_option autoImplicit false

namespace SchemaEvolution

open SchemaEvolution.Calendar

/-! ### Histories in order -/

namespace History

/-- No name stands twice, and the numbers rise. -/
structure Ordered (h : History) : Prop where
  ids : (h.applied.map AppliedStep.id).Nodup
  sequences : (h.applied.map AppliedStep.sequence).Pairwise (· < ·)

/-- Numbers that rise are at most the last of them. -/
theorem le_of_lastSequence? {h : History} (ordered : h.Ordered)
    {last : UInt64} (hlast : h.lastSequence? = some last) {n : UInt64}
    (hn : n ∈ h.applied.map AppliedStep.sequence) : n ≤ last := by
  have hsequences := ordered.sequences
  rw [lastSequence?, ← List.getLast?_map] at hlast
  obtain ⟨front, hfront⟩ := List.getLast?_eq_some_iff.mp hlast
  rw [hfront] at hn hsequences
  -- The number stands before the last or is the last.
  rcases List.mem_append.mp hn with hn | hn
  · have hlt := (List.pairwise_append.mp hsequences).2.2 n hn last
      List.mem_cons_self
    exact UInt64.le_of_lt hlt
  · rw [List.mem_singleton.mp hn]
    exact UInt64.le_refl last

/-- A history stays in order when a step is recorded that may come
next. -/
theorem Ordered.record {h : History} (ordered : h.Ordered)
    {step : UpgradeStep} (check : h.checkNext step = .ok ())
    (now : Instant) : (h.record step now).Ordered := by
  obtain ⟨hnew, hafter⟩ := (checkNext_eq_ok_iff h step).mp check
  constructor
  · -- The new name is none of the old ones.
    simp only [History.record, List.map_append]
    refine List.nodup_append.mpr ⟨ordered.ids, by simp, ?_⟩
    intro id hid id' hid' hsame
    obtain ⟨a, ha, rfl⟩ := List.mem_map.mp hid
    rw [List.mem_singleton.mp hid'] at hsame
    exact hnew ⟨a, ha, hsame⟩
  · -- The new number is above the last, which is above all others.
    simp only [History.record, List.map_append]
    refine List.pairwise_append.mpr
      ⟨ordered.sequences, List.pairwise_singleton _ _, ?_⟩
    intro n hn m hm
    rw [List.mem_singleton.mp hm]
    -- There is a last number, since there is a number at all.
    cases hlast : h.lastSequence? with
    | none =>
        rw [lastSequence?, Option.map_eq_none_iff,
          List.getLast?_eq_none_iff] at hlast
        rw [hlast] at hn
        cases hn
    | some last =>
        have hle : n ≤ last := le_of_lastSequence? ordered hlast hn
        have hlt : ¬ step.sequence ≤ last :=
          hafter last (by rw [hlast]; rfl)
        exact UInt64.lt_of_le_of_lt hle (UInt64.not_le.mp hlt)

end History

/-! ### Calls -/

/-- What a caller asks of a runner: to take a step, or to take steps up
to the first that fails. -/
inductive Call where
  | apply (now : Instant) (step : UpgradeStep)
  | applyAll (now : UpgradeStep → Instant) (steps : List UpgradeStep)

namespace Runner

variable {σ : Type}

/-- The runner after a call. -/
def call (r : Runner σ) : Call → Runner σ
  | .apply now step => (r.apply now step).2
  | .applyAll now steps => (r.applyAll now steps).2

/-- The runner after calls that are made one after the other. -/
def calls (r : Runner σ) : List Call → Runner σ
  | [] => r
  | c :: rest => (r.call c).calls rest

/-- Those of the steps that are taken before the first that fails. -/
def takenOf (r : Runner σ) (now : UpgradeStep → Instant) :
    List UpgradeStep → List UpgradeStep
  | [] => []
  | step :: rest =>
      match r.apply (now step) step with
      | (.error _, _) => []
      | (.ok _, r) => step :: r.takenOf now rest

section

variable {r next : Runner σ} {now : UpgradeStep → Instant}
  {step : UpgradeStep} {rest : List UpgradeStep}

theorem takenOf_of_error {e : UpgradeError}
    (h : r.apply (now step) step = (.error e, next)) :
    r.takenOf now (step :: rest) = [] := by
  rw [takenOf, h]

theorem takenOf_of_ok {sql : List String}
    (h : r.apply (now step) step = (.ok sql, next)) :
    r.takenOf now (step :: rest) = step :: next.takenOf now rest := by
  rw [takenOf, h]

/-- A step that fails is the last that is tried. -/
theorem applyAll_cons_of_error {e : UpgradeError}
    (h : r.apply (now step) step = (.error e, next)) :
    r.applyAll now (step :: rest) = (.error e, next) := by
  rw [applyAll, h]

/-- What a step gives that is taken stands before what the others
give. -/
theorem applyAll_cons_of_ok {sql : List String}
    (h : r.apply (now step) step = (.ok sql, next)) :
    r.applyAll now (step :: rest) =
      ((next.applyAll now rest).1.map fun more => sql ++ more,
        (next.applyAll now rest).2) := by
  rw [applyAll, h]
  cases hrest : next.applyAll now rest with
  | mk given final => cases given <;> simp only [hrest] <;> rfl

end

/-- The steps that a call takes. -/
def takenBy (r : Runner σ) : Call → List UpgradeStep
  | .apply now step =>
      match (r.apply now step).1 with
      | .error _ => []
      | .ok _ => [step]
  | .applyAll now steps => r.takenOf now steps

/-- The steps that are taken in calls that are made one after the
other. -/
def takenIn (r : Runner σ) : List Call → List UpgradeStep
  | [] => []
  | c :: rest => r.takenBy c ++ (r.call c).takenIn rest

section

variable {motive : List UpgradeStep → Runner σ → Prop}
  (taken : ∀ {steps : List UpgradeStep} {r : Runner σ} {now : Instant}
    {step : UpgradeStep} {sql : List String}, motive steps r →
    (r.apply now step).1 = .ok sql →
    motive (steps ++ [step]) (r.apply now step).2)
  (failed : ∀ {steps : List UpgradeStep} {r : Runner σ} {now : Instant}
    {step : UpgradeStep} {e : UpgradeError}, motive steps r →
    (r.apply now step).1 = .error e → motive steps (r.apply now step).2)

include taken failed

/-- What holds of a runner and of the steps it has taken holds after
steps up to the first that fails, if taking a step and failing at one
keep it. -/
theorem applyAll_induction {steps : List UpgradeStep} {r : Runner σ}
    (h : motive steps r) (now : UpgradeStep → Instant)
    (asked : List UpgradeStep) :
    motive (steps ++ r.takenOf now asked) (r.applyAll now asked).2 := by
  induction asked generalizing r steps with
  | nil =>
      rw [takenOf, List.append_nil]
      exact h
  | cons step rest ih =>
      cases hstep : r.apply (now step) step with
      | mk result next =>
          cases result with
          | error e =>
              -- The steps after one that fails are not tried.
              have hnext := failed h (by rw [hstep])
              rw [hstep] at hnext
              rw [takenOf_of_error hstep, applyAll_cons_of_error hstep,
                List.append_nil]
              exact hnext
          | ok sql =>
              have hnext := taken h (by rw [hstep])
              rw [hstep] at hnext
              have hrest := ih hnext
              rw [takenOf_of_ok hstep, applyAll_cons_of_ok hstep]
              rw [List.append_assoc] at hrest
              exact hrest

/-- So it does after a call. -/
theorem call_induction {steps : List UpgradeStep} {r : Runner σ}
    (h : motive steps r) (c : Call) :
    motive (steps ++ r.takenBy c) (r.call c) := by
  cases c with
  | apply now step =>
      rw [takenBy, Runner.call]
      split
      · rename_i e hfails
        rw [List.append_nil]
        exact failed h hfails
      · rename_i sql htaken
        exact taken h htaken
  | applyAll now asked =>
      exact applyAll_induction (motive := motive) taken failed h now asked

/-- So it does after calls that are made one after the other. -/
theorem calls_induction {steps : List UpgradeStep} {r : Runner σ}
    (h : motive steps r) (cs : List Call) :
    motive (steps ++ r.takenIn cs) (r.calls cs) := by
  induction cs generalizing r steps with
  | nil =>
      rw [takenIn, List.append_nil]
      exact h
  | cons c rest ih =>
      rw [takenIn, ← List.append_assoc]
      exact ih (call_induction (motive := motive) taken failed h c)

end

/-- The runner `r` has come from `first` by taking `steps` and nothing
else: its history is that of `first` with these steps recorded, and its
snapshot is that of `first` with their edits made. -/
structure Follows (first : Runner σ) (steps : List UpgradeStep)
    (r : Runner σ) : Prop where
  wellFormed : r.snapshot.WellFormed
  ordered : r.history.Ordered
  recorded : ∃ more, r.history.applied = first.history.applied ++ more ∧
    more.map AppliedStep.key = steps.map UpgradeStep.key
  replayed : first.snapshot.replay (steps.flatMap UpgradeStep.edits) =
    .ok r.snapshot

namespace Follows

variable {first r : Runner σ} {steps : List UpgradeStep}

/-- A runner has come from itself by taking nothing. -/
theorem refl (wellFormed : r.snapshot.WellFormed)
    (ordered : r.history.Ordered) : r.Follows [] r :=
  ⟨wellFormed, ordered, ⟨[], (List.append_nil _).symm, rfl⟩, rfl⟩

/-- A step that is taken is the next one. -/
theorem apply_of_ok (h : first.Follows steps r) {now : Instant}
    {step : UpgradeStep} {sql : List String}
    (taken : (r.apply now step).1 = .ok sql) :
    first.Follows (steps ++ [step]) (r.apply now step).2 := by
  obtain ⟨check, statements, next, plan, rfl, run⟩ :=
    apply_fst_eq_ok_iff.mp taken
  have hreplay : r.snapshot.replay step.edits = .ok next :=
    Target.replay_of_planEdits plan
  rw [apply_of_accepted check plan (Prod.ext run rfl)]
  obtain ⟨more, happlied, hkeys⟩ := h.recorded
  constructor
  · exact h.wellFormed.replay hreplay
  · exact h.ordered.record check now
  · -- The step is recorded under its own name and number.
    refine ⟨more ++ [⟨step.id, step.sequence, now⟩], ?_, ?_⟩
    · show r.history.applied ++ _ = _
      rw [happlied, List.append_assoc]
    · rw [List.map_append, List.map_append, hkeys]
      rfl
  · -- Its edits come after those of the steps before it.
    rw [List.flatMap_append, Snapshot.replay_append, h.replayed, ok_bind]
    simpa using hreplay

/-- A step that fails leaves no trace. -/
theorem apply_of_error (h : first.Follows steps r) {now : Instant}
    {step : UpgradeStep} {e : UpgradeError}
    (fails : (r.apply now step).1 = .error e) :
    first.Follows steps (r.apply now step).2 := by
  obtain ⟨hsnapshot, hhistory⟩ := apply_frame_of_error fails
  constructor
  · rw [hsnapshot]
    exact h.wellFormed
  · rw [hhistory]
    exact h.ordered
  · rw [hhistory]
    exact h.recorded
  · rw [hsnapshot]
    exact h.replayed

end Follows

/-- An upgrade that begins with no tables, or with those of a snapshot
that was read, and with a history in order, follows its beginning
whatever is asked of it and whatever the executor refuses. -/
theorem follows_calls (r : Runner σ)
    (start : r.snapshot = {} ∨
      ∃ text, Snapshot.ofText text = .ok r.snapshot)
    (ordered : r.history.Ordered) (cs : List Call) :
    r.Follows (r.takenIn cs) (r.calls cs) := by
  have wellFormed : r.snapshot.WellFormed := by
    rcases start with hempty | ⟨text, hread⟩
    · rw [hempty]
      exact Snapshot.wellFormed_empty
    · exact Snapshot.wellFormed_of_ofText hread
  exact calls_induction (motive := r.Follows)
    (fun h taken => h.apply_of_ok taken)
    (fun h fails => h.apply_of_error fails)
    (Follows.refl wellFormed ordered) cs

end Runner

/-- A table is made and dropped again, and then both are tried once
more. -/
def currencyCalls : List Call :=
  let dropCurrency : UpgradeStep :=
    { id := "drop-currency", sequence := 2
      edits := [.removeTable "Currency"] }
  [.apply .leapDay createCurrency,
   .applyAll (fun _ => .leapDay) [dropCurrency, createCurrency],
   .apply .leapDay dropCurrency]

/-- An executor that accepts two statements lets the table be made, and
what is refused after that leaves no trace. -/
theorem follows_currencyCalls :
    ((beginning Executor.upTo 2).takenIn currencyCalls).map
        UpgradeStep.id = ["create-currency"] ∧
      (beginning Executor.upTo 2).Follows
        ((beginning Executor.upTo 2).takenIn currencyCalls)
        ((beginning Executor.upTo 2).calls currencyCalls) :=
  ⟨by decide +kernel,
    Runner.follows_calls _ (.inl rfl)
      ⟨by decide, by simp [beginning]⟩ _⟩

end SchemaEvolution

import Mathlib.Data.Finset.Basic
import Mathlib.Data.Finset.Dedup
import Mathlib.Data.List.Perm.Subperm
import SchemaEvolution.Ddl.Basic

/-!
# `SchemaEvolution.Proofs.Ddl.LiveSequences`: sequences that are made and dropped

What schema statements do to sequences is read off a database that knows
of nothing else. `sequenceEvents` are the creations and drops among the
statements, in their order, and `LiveSequences.run` goes through them. It
refuses to create a sequence that is there and to drop one that is not.

* `LiveSequences.run_dropped`, `LiveSequences.run_created_iff`: what can be
  dropped and what can be created.
* `LiveSequences.run_replace_iff`: drops before creations come to what is
  left when nothing is created twice.
-/

set_option autoImplicit false

namespace SchemaEvolution

/-! ### Events -/

/-- What a statement does to a sequence. -/
inductive SequenceEvent where
  | created (sequence : ObjectName)
  | dropped (sequence : ObjectName)
deriving DecidableEq

/-- What the statement does to a sequence, if it is about one. -/
def Ddl.sequenceEvent? : Ddl → Option SequenceEvent
  | .createSequence sequence _ => some (.created sequence)
  | .dropSequence sequence => some (.dropped sequence)
  | _ => none

/-- What statements do to sequences, one after the other. -/
def sequenceEvents (statements : List Ddl) : List SequenceEvent :=
  statements.filterMap Ddl.sequenceEvent?

@[simp]
theorem sequenceEvents_nil : sequenceEvents [] = [] := rfl

@[simp]
theorem sequenceEvents_append (xs ys : List Ddl) :
    sequenceEvents (xs ++ ys) = sequenceEvents xs ++ sequenceEvents ys :=
  List.filterMap_append

/-- Statements that are about no sequence leave no events. -/
theorem sequenceEvents_eq_nil {statements : List Ddl}
    (h : ∀ st ∈ statements, st.sequenceEvent? = none) :
    sequenceEvents statements = [] :=
  List.filterMap_eq_nil_iff.mpr h

/-! ### A database of sequences -/

/-- The sequences that are there. -/
abbrev LiveSequences := Finset ObjectName

namespace LiveSequences

/-- What an event makes of the sequences, unless it is refused. -/
def step (live : LiveSequences) : SequenceEvent → Option LiveSequences
  | .created sequence =>
      if sequence ∈ live then none else some (insert sequence live)
  | .dropped sequence =>
      if sequence ∈ live then some (live.erase sequence) else none

/-- What events make of the sequences, one after the other, unless one of
them is refused. -/
def run (live : LiveSequences) (events : List SequenceEvent) :
    Option LiveSequences :=
  events.foldlM step live

/-! ### Drops and creations -/

variable {gone made kept : List ObjectName}

/-- Sequences that are there can be dropped, each of them once. -/
theorem run_dropped (apart : (gone ++ kept).Nodup) :
    run (gone ++ kept).toFinset (gone.map .dropped) =
      some kept.toFinset := by
  induction gone with
  | nil => rfl
  | cons sequence rest ih =>
      obtain ⟨hsequence, hrest⟩ := List.nodup_cons.mp apart
      have hstep : step (sequence :: rest ++ kept).toFinset
          (.dropped sequence) = some (rest ++ kept).toFinset := by
        rw [step, if_pos (by simp), List.cons_append, List.toFinset_cons,
          Finset.erase_insert (by simpa using hsequence)]
      rw [List.map_cons, run, List.foldlM_cons, hstep]
      exact ih hrest

/-- Sequences that are not there can be created, and only those, each of
them once. -/
theorem run_created_iff (apart : kept.Nodup) {next : LiveSequences} :
    run kept.toFinset (made.map .created) = some next ↔
      (made ++ kept).Nodup ∧ next = (made ++ kept).toFinset := by
  induction made generalizing kept with
  | nil => simp [run, apart, eq_comm]
  | cons sequence rest ih =>
      rw [List.map_cons, run, List.foldlM_cons, step]
      by_cases hlive : sequence ∈ kept
      · -- It is there already.
        rw [if_pos (by simpa using hlive)]
        simp [hlive]
      · rw [if_neg (by simpa using hlive), ← List.toFinset_cons]
        have hkept : (sequence :: kept).Nodup :=
          List.nodup_cons.mpr ⟨hlive, apart⟩
        have hmove : (rest ++ sequence :: kept).Perm
            (sequence :: rest ++ kept) := List.perm_middle
        refine (ih hkept).trans ?_
        rw [hmove.nodup_iff, List.toFinset_eq_of_perm _ _ hmove]

/-- Drops before creations leave what was not dropped and what was
created, when no sequence is left over that is created again. -/
theorem run_replace_iff {before after : List ObjectName}
    (hbefore : before.Perm (gone ++ kept))
    (hafter : after.Perm (made ++ kept)) (apart : before.Nodup)
    {next : LiveSequences} :
    run before.toFinset (gone.map .dropped ++ made.map .created) =
        some next ↔ after.Nodup ∧ next = after.toFinset := by
  have hgone := hbefore.nodup_iff.mp apart
  have hkept : kept.Nodup := (List.nodup_append.mp hgone).2.1
  have hdropped := run_dropped hgone
  rw [run] at hdropped
  rw [run, List.foldlM_append, List.toFinset_eq_of_perm _ _ hbefore,
    hdropped, hafter.nodup_iff, List.toFinset_eq_of_perm _ _ hafter]
  exact run_created_iff hkept

/-- Sequences that are as many as before and the same ones are those from
before in some order. -/
theorem perm_of_toFinset_eq {before after : List ObjectName}
    (apart : before.Nodup) (hlength : after.length = before.length)
    (h : before.toFinset = after.toFinset) : before.Perm after := by
  have hsubset : before ⊆ after := fun sequence hsequence => by
    have hlive := List.mem_toFinset.mpr hsequence
    rw [h] at hlive
    exact List.mem_toFinset.mp hlive
  exact (apart.subperm hsubset).perm_of_length_le hlength.le

end LiveSequences

end SchemaEvolution

import SchemaEvolution.Calendar.Instant
import SchemaEvolution.RenderError
import SchemaEvolution.Schema.Change

/-!
# `SchemaEvolution.Upgrade.Step`: the steps of an upgrade

A step is taken once, and the numbers of the steps rise. Having been
taken is the stronger objection: it is raised first.

* `History.checkNext_eq_ok_iff`: the steps that may come next.
-/

set_option autoImplicit false

namespace SchemaEvolution

open SchemaEvolution.Calendar

/-- A step of an upgrade: edits that are made together. -/
structure UpgradeStep where
  id : String
  sequence : UInt64
  description : String := ""
  edits : List SchemaEdit := []
deriving BEq

/-! ### Why an upgrade stops -/

/-- Why an upgrade stops. -/
inductive UpgradeError where
  | dialect (e : RenderError)
  | unknownTable (table : String)
  | tableExists (table : String)
  | unknownColumn (table column : String)
  | columnExists (table column : String)
  | unknownIndex (table index : String)
  | indexExists (table index : String)
  | unknownView (view : String)
  | nonIncreasingSequence (id : String) (sequence previous : UInt64)
  | duplicateStepId (id : String)
  | executor (step message : String)
  /-- A text that does not spell what it should. -/
  | serialization
deriving DecidableEq

namespace UpgradeError

/-- The wording of an error. -/
def message : UpgradeError → String
  | .dialect e => e.message
  | .unknownTable table => "Table '" ++ table ++ "' does not exist"
  | .tableExists table => "Table '" ++ table ++ "' already exists"
  | .unknownColumn table column =>
      "Column '" ++ column ++ "' does not exist in table '" ++ table ++
        "'"
  | .columnExists table column =>
      "Column '" ++ column ++ "' already exists in table '" ++ table ++
        "'"
  | .unknownIndex table index =>
      "Index '" ++ index ++ "' does not exist on table '" ++ table ++ "'"
  | .indexExists table index =>
      "Index '" ++ index ++ "' already exists on table '" ++ table ++ "'"
  | .unknownView view => "View '" ++ view ++ "' does not exist"
  | .nonIncreasingSequence id sequence previous =>
      "Upgrade step '" ++ id ++ "' has sequence " ++
        toString sequence.toNat ++ ", which does not follow " ++
        toString previous.toNat
  | .duplicateStepId id =>
      "Upgrade step '" ++ id ++ "' has already been applied"
  | .executor step message =>
      "Executor failed in upgrade step '" ++ step ++ "': " ++ message
  | .serialization => "Serialization error"

/-- Whether the order of the steps is at fault, and not the schema or
the database. -/
def isOrdering : UpgradeError → Bool
  | .nonIncreasingSequence _ _ _ => true
  | .duplicateStepId _ => true
  | _ => false

end UpgradeError

/-! ### The steps that have been taken -/

/-- A step that has been taken. -/
structure AppliedStep where
  id : String
  sequence : UInt64
  appliedAt : Instant
deriving DecidableEq

/-- The steps that have been taken, the oldest first. -/
structure History where
  applied : List AppliedStep := []
deriving DecidableEq

namespace History

/-- Whether a step of this name has been taken. -/
def IsApplied (h : History) (id : String) : Prop :=
  ∃ a ∈ h.applied, a.id = id

instance (h : History) (id : String) : Decidable (h.IsApplied id) :=
  inferInstanceAs (Decidable (∃ a ∈ h.applied, a.id = id))

/-- The number of the step that was taken last. -/
def lastSequence? (h : History) : Option UInt64 :=
  h.applied.getLast?.map AppliedStep.sequence

/-- Checks that a step may come next. -/
def checkNext (h : History) (step : UpgradeStep) :
    Except UpgradeError Unit :=
  if h.IsApplied step.id then .error (.duplicateStepId step.id)
  else
    match h.lastSequence? with
    | some previous =>
        if step.sequence ≤ previous then
          .error (.nonIncreasingSequence step.id step.sequence previous)
        else .ok ()
    | none => .ok ()

/-- The history with one more step. -/
def record (h : History) (step : UpgradeStep) (now : Instant) : History :=
  ⟨h.applied ++ [⟨step.id, step.sequence, now⟩]⟩

/-- A step may come next when it is new and its number is above the
last one. -/
theorem checkNext_eq_ok_iff (h : History) (step : UpgradeStep) :
    h.checkNext step = .ok () ↔
      ¬ h.IsApplied step.id ∧
        ∀ previous ∈ h.lastSequence?, ¬ step.sequence ≤ previous := by
  unfold checkNext
  split
  · simp_all
  · split
    · rename_i hlast
      split <;> simp_all
    · simp_all

end History

end SchemaEvolution

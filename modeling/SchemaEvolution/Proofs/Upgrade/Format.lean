import SchemaEvolution.Proofs.Calendar.Instant
import SchemaEvolution.Proofs.Schema.Format
import SchemaEvolution.Proofs.Upgrade.Snapshot
import SchemaEvolution.Upgrade.Format

/-!
# `SchemaEvolution.Proofs.Upgrade.Format`: what is kept between runs

What a run has reached is kept as two texts. The text of a history is
always read, and as the history it is the text of. The text of a
snapshot is read as that snapshot when its tables are valid and have
names of their own, and refused otherwise.

* `History.ofText_toText`: a history is read back.
* `Snapshot.parse?_toText`: a snapshot is read back before its tables
  are checked, in the order in which everything was declared.
* `Snapshot.ofText_toText_eq_ok_iff`: when it is accepted.
-/

set_option autoImplicit false

namespace SchemaEvolution

open SchemaEvolution.Calendar
open SchemaEvolution.Json

/-! ### Histories -/

namespace AppliedStep

/-- A step that has been taken is read back. -/
@[simp]
theorem ofJson?_toJson (a : AppliedStep) : ofJson? a.toJson = some a := by
  have hfields : a.toJson.fields? fieldNames = some _ :=
    fields?_ofMembers (by simp [fieldNames]) (by simp)
  rw [ofJson?, hfields]
  simp [required?, List.lookup_cons, Instant.parse?_text]

/-- Its value can be spelled. -/
@[simp]
theorem spelled_toJson (a : AppliedStep) : a.toJson.Spelled :=
  spelled_ofMembers (by simp)

end AppliedStep

namespace History

/-- A history is read back. -/
theorem ofText_toText (h : History) : ofText h.toText = .ok h := by
  have hspelled : h.toJson.Spelled :=
    spelled_array_map fun a _ => a.spelled_toJson
  have hread : ofJson? h.toJson = some h := by
    rw [ofJson?, toJson, list?_array_map fun a _ => a.ofJson?_toJson]
    rfl
  rw [ofText, toText, parse?_pretty hspelled, Option.bind_some, hread]

end History

/-! ### Snapshots -/

namespace Snapshot

/-- A snapshot is read back. -/
theorem ofJson?_toJson (s : Snapshot) : ofJson? s.toJson = some s := by
  have hfields : s.toJson.fields? fieldNames = some _ :=
    fields?_ofMembers (by simp [fieldNames]) (by simp)
  rw [ofJson?, hfields]
  simp [defaulted?, List.lookup_cons, list?_array_map]

/-- Its value can be spelled. -/
theorem spelled_toJson (s : Snapshot) : s.toJson.Spelled :=
  spelled_ofMembers (by simp [spelled_array_map])

/-- A snapshot is read back before its tables are checked. -/
theorem parse?_toText (s : Snapshot) :
    (parse? s.toText).bind ofJson? = some s := by
  rw [toText, parse?_pretty s.spelled_toJson, Option.bind_some,
    ofJson?_toJson]

/-- The text of a snapshot is checked like the snapshot. -/
theorem ofText_toText (s : Snapshot) :
    ofText s.toText = s.validate.map fun _ => s := by
  simp only [ofText, parse?_toText]
  cases s.validate <;> rfl

/-- The text of a snapshot is accepted when the snapshot is well-formed,
and as that snapshot. -/
theorem ofText_toText_eq_ok_iff {s read : Snapshot} :
    ofText s.toText = .ok read ↔ s.WellFormed ∧ read = s := by
  rw [ofText_toText, ← validate_eq_ok_iff]
  cases s.validate <;> simp [Except.map, eq_comm]

end Snapshot

end SchemaEvolution

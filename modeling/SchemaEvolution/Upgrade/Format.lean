import SchemaEvolution.Json.Parser
import SchemaEvolution.Json.Printer
import SchemaEvolution.Schema.Format
import SchemaEvolution.Upgrade.Snapshot
import SchemaEvolution.Upgrade.Step

/-!
# `SchemaEvolution.Upgrade.Format`: upgrades as JSON

A snapshot, a history and a list of steps are kept between runs as
JSON texts. An edit is an object whose `kind` says what its other
fields are; it may also be an array that begins with the kind. The
kind can stand anywhere, so an edit is kept as a whole before it is
read, which bounds its depth and asks that all of it spell something.
-/

set_option autoImplicit false

namespace SchemaEvolution

open SchemaEvolution.Calendar
open SchemaEvolution.Json

/-- The most levels of arrays and objects in a text that is kept
before it is read. -/
def maxDepth : Nat := 127

namespace SchemaEdit

/-- The members of an edit's object, the kind first. -/
def members : SchemaEdit → List (String × Json)
  | .addTable table =>
      [("kind", .ofString "add_table"), ("table", table.toJson)]
  | .removeTable table =>
      [("kind", .ofString "remove_table"), ("table", .ofString table)]
  | .renameTable source target =>
      [("kind", .ofString "rename_table"), ("from", .ofString source),
        ("to", .ofString target)]
  | .addColumn table column =>
      [("kind", .ofString "add_column"), ("table", .ofString table),
        ("column", column.toJson)]
  | .changeColumn table column target =>
      [("kind", .ofString "change_column"), ("table", .ofString table),
        ("column", .ofString column), ("to", target.toJson)]
  | .removeColumn table column =>
      [("kind", .ofString "remove_column"), ("table", .ofString table),
        ("column", .ofString column)]
  | .addIndex table index =>
      [("kind", .ofString "add_index"), ("table", .ofString table),
        ("index", index.toJson)]
  | .removeIndex table index =>
      [("kind", .ofString "remove_index"), ("table", .ofString table),
        ("index", .ofString index)]
  | .renameIndex table source target =>
      [("kind", .ofString "rename_index"), ("table", .ofString table),
        ("from", .ofString source), ("to", .ofString target)]
  | .changePrimaryKey table columns =>
      [("kind", .ofString "change_primary_key"),
        ("table", .ofString table), ("columns", .ofStrings columns)]
  | .removeView view =>
      [("kind", .ofString "remove_view"), ("view", .ofString view)]

/-- Writes an edit. -/
def toJson (e : SchemaEdit) : Json := .ofMembers e.members

/-- Reads the fields of an edit of one kind. -/
def ofFields? (kind : String) (j : Json) : Option SchemaEdit := do
  let column := Column.ofJson? isNullOrEmpty
  match kind with
  | "add_table" =>
      let fields ← j.fields? ["table"]
      let table ← required? fields "table" (Table.ofJson? isNullOrEmpty)
      return .addTable table
  | "remove_table" =>
      let fields ← j.fields? ["table"]
      let table ← required? fields "table" string?
      return .removeTable table
  | "rename_table" =>
      let fields ← j.fields? ["from", "to"]
      let source ← required? fields "from" string?
      let target ← required? fields "to" string?
      return .renameTable source target
  | "add_column" =>
      let fields ← j.fields? ["table", "column"]
      let table ← required? fields "table" string?
      let column ← required? fields "column" column
      return .addColumn table column
  | "change_column" =>
      let fields ← j.fields? ["table", "column", "to"]
      let table ← required? fields "table" string?
      let name ← required? fields "column" string?
      let target ← required? fields "to" column
      return .changeColumn table name target
  | "remove_column" =>
      let fields ← j.fields? ["table", "column"]
      let table ← required? fields "table" string?
      let column ← required? fields "column" string?
      return .removeColumn table column
  | "add_index" =>
      let fields ← j.fields? ["table", "index"]
      let table ← required? fields "table" string?
      let index ← required? fields "index" Index.ofJson?
      return .addIndex table index
  | "remove_index" =>
      let fields ← j.fields? ["table", "index"]
      let table ← required? fields "table" string?
      let index ← required? fields "index" string?
      return .removeIndex table index
  | "rename_index" =>
      let fields ← j.fields? ["table", "from", "to"]
      let table ← required? fields "table" string?
      let source ← required? fields "from" string?
      let target ← required? fields "to" string?
      return .renameIndex table source target
  | "change_primary_key" =>
      let fields ← j.fields? ["table", "columns"]
      let table ← required? fields "table" string?
      let columns ← required? fields "columns" (list? string?)
      return .changePrimaryKey table columns
  | "remove_view" =>
      let fields ← j.fields? ["view"]
      let view ← required? fields "view" string?
      return .removeView view
  | _ => none

/-- The kind of an edit, and the value that holds its fields. -/
def split? : Json → Option (String × Json)
  | .object members => do
      let kind ←
        match members.filter fun m => m.1 = some "kind" with
        | [(_, v)] => v.string?
        | _ => none
      return (kind, .object (members.filter fun m => m.1 ≠ some "kind"))
  | .array (kind :: items) => do
      let kind ← kind.string?
      return (kind, .array items)
  | _ => none

/-- Reads an edit that lies `depth` levels deep. -/
def ofJson? (depth : Nat) (j : Json) : Option SchemaEdit := do
  if j.isPlain (maxDepth - depth) then
    let (kind, fields) ← split? j
    ofFields? kind fields
  else none

end SchemaEdit

namespace UpgradeStep

/-- The fields of a step. -/
def fieldNames : List String :=
  ["id", "sequence", "description", "edits"]

/-- The members of a step's object. -/
def members (s : UpgradeStep) : List (String × Json) :=
  [("id", .ofString s.id), ("sequence", .ofInt s.sequence.toNat),
    ("description", .ofString s.description),
    ("edits", .array (s.edits.map SchemaEdit.toJson))]

/-- Writes a step. -/
def toJson (s : UpgradeStep) : Json := .ofMembers s.members

/-- Reads a step that lies `depth` levels deep. -/
def ofJson? (depth : Nat) (j : Json) : Option UpgradeStep := do
  let fields ← j.fields? fieldNames
  let id ← required? fields "id" string?
  let sequence ← required? fields "sequence" uint64OfJson?
  let description ← defaulted? fields "description" "" string?
  let edits ← defaulted? fields "edits" []
    (list? (SchemaEdit.ofJson? (depth + 2)))
  return { id, sequence, description, edits }

end UpgradeStep

/-- Reads a list of steps. -/
def stepsOfText? (s : String) : Option (List UpgradeStep) := do
  (← parse? s).list? (UpgradeStep.ofJson? 1)

/-- Reads a list of edits. -/
def editsOfText? (s : String) : Option (List SchemaEdit) := do
  (← parse? s).list? (SchemaEdit.ofJson? 1)

/-- Reads a configuration. -/
def Config.ofText? (s : String) : Option Config := do
  Config.ofJson? (← parse? s)

namespace AppliedStep

/-- The fields of a step that has been taken. -/
def fieldNames : List String := ["id", "sequence", "applied_at"]

/-- Writes a step that has been taken. -/
def toJson (a : AppliedStep) : Json :=
  .ofMembers
    [("id", .ofString a.id), ("sequence", .ofInt a.sequence.toNat),
      ("applied_at", .ofString a.appliedAt.text)]

/-- Reads a step that has been taken. -/
def ofJson? (j : Json) : Option AppliedStep := do
  let fields ← j.fields? fieldNames
  let id ← required? fields "id" string?
  let sequence ← required? fields "sequence" uint64OfJson?
  let appliedAt ← required? fields "applied_at" fun v => do
    Instant.parse? (← v.string?)
  return { id, sequence, appliedAt }

end AppliedStep

namespace History

/-- Writes a history: the steps, without anything around them. -/
def toJson (h : History) : Json :=
  .array (h.applied.map AppliedStep.toJson)

/-- Reads a history. -/
def ofJson? (j : Json) : Option History := do
  return ⟨← j.list? AppliedStep.ofJson?⟩

/-- The text of a history. -/
def toText (h : History) : String := h.toJson.pretty

/-- Reads the text of a history. -/
def ofText (s : String) : Except UpgradeError History :=
  match (parse? s).bind ofJson? with
  | some h => .ok h
  | none => .error .serialization

end History

namespace Snapshot

/-- The fields of a snapshot. -/
def fieldNames : List String := ["tables", "views"]

/-- Writes a snapshot. -/
def toJson (s : Snapshot) : Json :=
  .ofMembers
    [("tables", .array (s.tables.map Table.toJson)),
      ("views", .ofStrings s.views)]

/-- Reads a snapshot. Its tables may be invalid. -/
def ofJson? (j : Json) : Option Snapshot := do
  let fields ← j.fields? fieldNames
  let tables ← defaulted? fields "tables" []
    (list? (Table.ofJson? isNull))
  let views ← defaulted? fields "views" [] (list? string?)
  return { tables, views }

/-- The text of a snapshot. -/
def toText (s : Snapshot) : String := s.toJson.pretty

/-- Reads the text of a snapshot and checks its tables. -/
def ofText (s : String) : Except UpgradeError Snapshot :=
  match (parse? s).bind ofJson? with
  | none => .error .serialization
  | some snapshot => do
      snapshot.validate
      return snapshot

end Snapshot

end SchemaEvolution

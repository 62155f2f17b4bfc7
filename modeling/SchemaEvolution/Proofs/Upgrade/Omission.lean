import SchemaEvolution.Proofs.Json.Omission
import SchemaEvolution.Proofs.Upgrade.Format

/-!
# `SchemaEvolution.Proofs.Upgrade.Omission`: upgrades with fields left out

What is written by hand seldom states every field. The layouts say which
fields a record has and what stands in for those that may be left out:
for a column the start of its series is `-1`, for all other fields it is
the empty value of their type. A record, with fields left out of it or of
what it holds, is read as if it were written in full.

An edit is kept as a whole before it is read. That bounds how deep it may
lie in a text, and asks that its numbers are finite; leaving fields out
makes neither worse.

* `Column.ofJson?_abridged`, `Index.ofJson?_abridged`,
  `Table.ofJson?_abridged`: the parts of a schema.
* `SchemaEdit.ofFields?_abridged`: the fields of an edit, kind by kind.
* `SchemaEdit.ofJson?_abridged`, `UpgradeStep.ofJson?_abridged`,
  `Snapshot.ofJson?_abridged`: what is made of those parts.
* `format_reads_back`: all of it, and which snapshots are accepted.
-/

set_option autoImplicit false

namespace SchemaEvolution

open SchemaEvolution.Json

/-! ### Layouts -/

namespace Column

/-- The fields of a column. All but its name and its type may be left
out. -/
def layout : List Field :=
  [{ name := "name" }, { name := "data_type" },
    { name := "width", standIn? := some (.ofInt 0) },
    { name := "scale", standIn? := some (.ofInt 0) },
    { name := "nullable", standIn? := some (.bool false) },
    { name := "primary_key", standIn? := some (.bool false) },
    { name := "auto_numbered", standIn? := some (.bool false) },
    { name := "auto_number_start", standIn? := some (.ofInt (-1)) },
    { name := "default_value", standIn? := some .null }]

/-- A column, and what may be left of it. -/
def Abridged : Json → Json → Prop := AbridgedObject layout

end Column

namespace Index

/-- The fields of an index. -/
def layout : List Field :=
  [{ name := "name" }, { name := "columns" },
    { name := "unique", standIn? := some (.bool false) }]

/-- An index, and what may be left of it. -/
def Abridged : Json → Json → Prop := AbridgedObject layout

end Index

namespace Table

/-- The fields of a table. -/
def layout : List Field :=
  [{ name := "name" },
    { name := "columns", Abridged := AbridgedArray Column.Abridged,
      standIn? := some (.array []) },
    { name := "indexes", Abridged := AbridgedArray Index.Abridged,
      standIn? := some (.array []) },
    { name := "temporary", standIn? := some (.bool false) }]

/-- A table, and what may be left of it. -/
def Abridged : Json → Json → Prop := AbridgedObject layout

end Table

namespace SchemaEdit

/-- The fields of an edit of one kind, next to the kind itself. None may
be left out, but parts of their values may. -/
def layout : String → List Field
  | "add_table" => [{ name := "table", Abridged := Table.Abridged }]
  | "remove_table" => [{ name := "table" }]
  | "rename_table" => [{ name := "from" }, { name := "to" }]
  | "add_column" =>
      [{ name := "table" },
        { name := "column", Abridged := Column.Abridged }]
  | "change_column" =>
      [{ name := "table" }, { name := "column" },
        { name := "to", Abridged := Column.Abridged }]
  | "remove_column" => [{ name := "table" }, { name := "column" }]
  | "add_index" =>
      [{ name := "table" }, { name := "index", Abridged := Index.Abridged }]
  | "remove_index" => [{ name := "table" }, { name := "index" }]
  | "rename_index" =>
      [{ name := "table" }, { name := "from" }, { name := "to" }]
  | "change_primary_key" => [{ name := "table" }, { name := "columns" }]
  | "remove_view" => [{ name := "view" }]
  | _ => []

/-- An edit, and what may be left of it. -/
def Abridged (j j' : Json) : Prop :=
  ∃ kind ms ms',
    j = ofMembers (("kind", .ofString kind) :: ms) ∧
    j' = ofMembers (("kind", .ofString kind) :: ms') ∧
    AbridgedMembers (layout kind) ms ms'

end SchemaEdit

namespace UpgradeStep

/-- The fields of a step. -/
def layout : List Field :=
  [{ name := "id" }, { name := "sequence" },
    { name := "description", standIn? := some (.ofString "") },
    { name := "edits", Abridged := AbridgedArray SchemaEdit.Abridged,
      standIn? := some (.array []) }]

/-- A step, and what may be left of it. -/
def Abridged : Json → Json → Prop := AbridgedObject layout

end UpgradeStep

namespace Snapshot

/-- The fields of a snapshot. -/
def layout : List Field :=
  [{ name := "tables", Abridged := AbridgedArray Table.Abridged,
      standIn? := some (.array []) },
    { name := "views", standIn? := some (.array []) }]

/-- A snapshot, and what may be left of it. -/
def Abridged : Json → Json → Prop := AbridgedObject layout

end Snapshot

/-! ### Schemas -/

/-- A text is read back from what is left of an object. -/
theorem Json.AbridgedMembers.text? {fs : List Field}
    {ms ms' : List (String × Json)} (h : AbridgedMembers fs ms ms')
    (distinct : (fs.map Field.name).Nodup) (i : Nat) {name s : String}
    (hf : fs[i]? = some { name := name })
    (hv : ms[i]? = some (name, .ofString s)) :
    Json.required? ms' name string? = some s :=
  h.required?_of_same distinct i hf hv (string?_ofString s)

namespace Column

/-- Nothing need be left out: what is written in full is one of the shorter
forms too. -/
theorem abridged_refl (c : Column) : Abridged c.toJson c.toJson :=
  ⟨_, _, rfl, rfl, .refl rfl (by simp [layout, members])⟩

/-- A column is read back from what is left of it. -/
theorem ofJson?_abridged (isEmpty : Json → Bool) (c : Column) {j : Json}
    (h : Abridged c.toJson j) : ofJson? isEmpty j = some c := by
  obtain ⟨ms, ms', hms, rfl, h⟩ := h
  obtain rfl : c.members = ms := ofMembers_injective hms
  have distinct : (layout.map Field.name).Nodup := by decide
  have hfields : (ofMembers ms').fields? fieldNames = some ms' :=
    h.fields? rfl distinct
  -- Each field is read at its place in the layout, or is what stands in for
  -- it.
  have hname : required? ms' "name" string? = some c.name :=
    h.required?_of_same distinct 0 rfl rfl rfl
  have htype : required? ms' "data_type" (DataType.ofJson? isEmpty) =
      some c.type :=
    h.required?_of_same distinct 1 rfl rfl (c.type.ofJson?_toJson isEmpty)
  have hwidth : defaulted? ms' "width" 0 uint32OfJson? = some c.width :=
    h.defaulted?_of_same distinct 2 rfl rfl (uint32OfJson?_ofInt 0)
      (uint32OfJson?_ofInt c.width)
  have hscale : defaulted? ms' "scale" 0 uint32OfJson? = some c.scale :=
    h.defaulted?_of_same distinct 3 rfl rfl (uint32OfJson?_ofInt 0)
      (uint32OfJson?_ofInt c.scale)
  have hnullable : defaulted? ms' "nullable" false bool? =
      some c.nullable :=
    h.defaulted?_of_same distinct 4 rfl rfl rfl rfl
  have hinKey : defaulted? ms' "primary_key" false bool? = some c.inKey :=
    h.defaulted?_of_same distinct 5 rfl rfl rfl rfl
  have hautoNumbered : defaulted? ms' "auto_numbered" false bool? =
      some c.autoNumbered :=
    h.defaulted?_of_same distinct 6 rfl rfl rfl rfl
  have hseriesStart : defaulted? ms' "auto_number_start"
      defaultSeriesStart int64OfJson? = some c.seriesStart :=
    h.defaulted?_of_same distinct 7 rfl rfl
      (int64OfJson?_ofInt defaultSeriesStart)
      (int64OfJson?_ofInt c.seriesStart)
  have hdefaultText : defaulted? ms' "default_value" none
      optionalString? = some c.defaultText :=
    h.defaulted?_of_same distinct 8 rfl rfl rfl
      (by cases c.defaultText <;> rfl)
  simp only [ofJson?, hfields, hname, htype, hwidth, hscale, hnullable,
    hinKey, hautoNumbered, hseriesStart, hdefaultText,
    Option.bind_eq_bind, Option.bind_some]
  rfl

end Column

namespace Index

/-- Nor of an index. -/
theorem abridged_refl (i : Index) : Abridged i.toJson i.toJson :=
  ⟨_, _, rfl, rfl, .refl rfl (by simp [layout, members])⟩

/-- An index is read back from what is left of it. -/
theorem ofJson?_abridged (i : Index) {j : Json}
    (h : Abridged i.toJson j) : ofJson? j = some i := by
  obtain ⟨ms, ms', hms, rfl, h⟩ := h
  obtain rfl : i.members = ms := ofMembers_injective hms
  have distinct : (layout.map Field.name).Nodup := by decide
  have hfields : (ofMembers ms').fields? fieldNames = some ms' :=
    h.fields? rfl distinct
  have hname : required? ms' "name" string? = some i.name :=
    h.required?_of_same distinct 0 rfl rfl rfl
  have hcolumns : required? ms' "columns" (list? string?) =
      some i.columns :=
    h.required?_of_same distinct 1 rfl rfl (list?_ofStrings i.columns)
  have hunique : defaulted? ms' "unique" false bool? = some i.unique :=
    h.defaulted?_of_same distinct 2 rfl rfl rfl rfl
  simp only [ofJson?, hfields, hname, hcolumns, hunique,
    Option.bind_eq_bind, Option.bind_some]
  rfl

end Index

namespace Table

/-- Nor of a table, for which its columns and its indexes have to be shorter
forms of themselves. -/
theorem abridged_refl (t : Table) : Abridged t.toJson t.toJson :=
  ⟨_, _, rfl, rfl, .refl rfl (by
    simp [layout, members, AbridgedArray.refl Column.abridged_refl,
      AbridgedArray.refl Index.abridged_refl])⟩

/-- A table is read back from what is left of it. -/
theorem ofJson?_abridged (isEmpty : Json → Bool) (t : Table) {j : Json}
    (h : Abridged t.toJson j) : ofJson? isEmpty j = some t := by
  obtain ⟨ms, ms', hms, rfl, h⟩ := h
  obtain rfl : t.members = ms := ofMembers_injective hms
  have distinct : (layout.map Field.name).Nodup := by decide
  have hfields : (ofMembers ms').fields? fieldNames = some ms' :=
    h.fields? rfl distinct
  have hname : required? ms' "name" string? = some t.name :=
    h.required?_of_same distinct 0 rfl rfl rfl
  -- The parts of a table are read item by item, each of them shortened or
  -- not.
  have hcolumns : defaulted? ms' "columns" []
      (list? (Column.ofJson? isEmpty)) = some t.columns :=
    h.defaulted? distinct 1 rfl rfl rfl rfl
      (list?_array_map fun c _ => c.ofJson?_toJson isEmpty) fun _ hv =>
        AbridgedArray.list? (fun c _ _ => c.ofJson?_abridged isEmpty) hv
  have hindexes : defaulted? ms' "indexes" [] (list? Index.ofJson?) =
      some t.indexes :=
    h.defaulted? distinct 2 rfl rfl rfl rfl
      (list?_array_map fun i _ => i.ofJson?_toJson) fun _ hv =>
        AbridgedArray.list? (fun i _ _ => i.ofJson?_abridged) hv
  have htemporary : defaulted? ms' "temporary" false bool? =
      some t.temporary :=
    h.defaulted?_of_same distinct 3 rfl rfl rfl rfl
  simp only [ofJson?, hfields, hname, hcolumns, hindexes, htemporary,
    Option.bind_eq_bind, Option.bind_some]
  rfl

end Table

/-! ### Edits -/

namespace SchemaEdit

/-- The kind of an edit is found, whatever its fields are. -/
theorem split?_ofMembers {kind : String} {ms : List (String × Json)}
    (hms : "kind" ∉ ms.map Prod.fst) :
    split? (ofMembers (("kind", .ofString kind) :: ms)) =
      some (kind, ofMembers ms) := by
  have hne : ∀ m ∈ ms, m.1 ≠ "kind" := fun m hm heq =>
    hms (heq ▸ List.mem_map_of_mem hm)
  have hkind : (ms.map fun m => ((some m.1, m.2) : Json.Text × Json)).filter
      (fun m => m.1 = some "kind") = [] := by
    rw [List.filter_eq_nil_iff]
    rintro _ hm
    obtain ⟨m, hmem, rfl⟩ := List.mem_map.mp hm
    simpa using hne m hmem
  have hfields : (ms.map fun m => ((some m.1, m.2) : Json.Text × Json)).filter
      (fun m => m.1 ≠ some "kind") =
        ms.map fun m => ((some m.1, m.2) : Json.Text × Json) := by
    rw [List.filter_eq_self]
    rintro _ hm
    obtain ⟨m, hmem, rfl⟩ := List.mem_map.mp hm
    simpa using hne m hmem
  simp only [split?, ofMembers, List.map_cons, List.filter_cons, hkind,
    hfields, ofString, string?]
  simp

/-- No kind of edit has two fields of one name, so that a name says which
field is meant. -/
theorem nodup_layout (kind : String) :
    ((layout kind).map Field.name).Nodup := by
  unfold layout
  split <;> decide

/-- The tag of an edit is not one of its fields: what is left out of the
fields never touches it. -/
theorem kind_not_mem_layout (kind : String) :
    "kind" ∉ (layout kind).map Field.name := by
  unfold layout
  split <;> decide

/-- The fields of an edit are read back from what is left of them. -/
theorem ofFields?_abridged (e : SchemaEdit) {kind : String}
    {ms ms' : List (String × Json)}
    (hms : e.members = ("kind", .ofString kind) :: ms)
    (h : AbridgedMembers (layout kind) ms ms') :
    ofFields? kind (ofMembers ms') = some e := by
  have distinct := nodup_layout kind
  -- One case for each kind, which reads its fields at their places in the
  -- layout.
  cases e with
  | addTable t =>
      cases hms
      have hfields : fields? ["table"] (ofMembers ms') = some ms' :=
        h.fields? rfl distinct
      have htable : required? ms' "table" (Table.ofJson? isNullOrEmpty) =
          some t :=
        h.required? distinct 0 rfl rfl rfl fun _ =>
          t.ofJson?_abridged isNullOrEmpty
      simp [ofFields?, hfields, htable]
  | removeTable t =>
      cases hms
      have hfields : fields? ["table"] (ofMembers ms') = some ms' :=
        h.fields? rfl distinct
      have htable := h.text? distinct 0 rfl rfl
      simp [ofFields?, hfields, htable]
  | renameTable source target =>
      cases hms
      have hfields : fields? ["from", "to"] (ofMembers ms') = some ms' :=
        h.fields? rfl distinct
      have hsource := h.text? distinct 0 rfl rfl
      have htarget := h.text? distinct 1 rfl rfl
      simp [ofFields?, hfields, hsource, htarget]
  | addColumn t c =>
      cases hms
      have hfields : fields? ["table", "column"] (ofMembers ms') =
          some ms' := h.fields? rfl distinct
      have htable := h.text? distinct 0 rfl rfl
      have hcolumn : required? ms' "column"
          (Column.ofJson? isNullOrEmpty) = some c :=
        h.required? distinct 1 rfl rfl rfl fun _ =>
          c.ofJson?_abridged isNullOrEmpty
      simp [ofFields?, hfields, htable, hcolumn]
  | changeColumn t source c =>
      cases hms
      have hfields : fields? ["table", "column", "to"] (ofMembers ms') =
          some ms' := h.fields? rfl distinct
      have htable := h.text? distinct 0 rfl rfl
      have hsource := h.text? distinct 1 rfl rfl
      have htarget : required? ms' "to" (Column.ofJson? isNullOrEmpty) =
          some c :=
        h.required? distinct 2 rfl rfl rfl fun _ =>
          c.ofJson?_abridged isNullOrEmpty
      simp [ofFields?, hfields, htable, hsource, htarget]
  | removeColumn t column =>
      cases hms
      have hfields : fields? ["table", "column"] (ofMembers ms') =
          some ms' := h.fields? rfl distinct
      have htable := h.text? distinct 0 rfl rfl
      have hcolumn := h.text? distinct 1 rfl rfl
      simp [ofFields?, hfields, htable, hcolumn]
  | addIndex t i =>
      cases hms
      have hfields : fields? ["table", "index"] (ofMembers ms') =
          some ms' := h.fields? rfl distinct
      have htable := h.text? distinct 0 rfl rfl
      have hindex : required? ms' "index" Index.ofJson? = some i :=
        h.required? distinct 1 rfl rfl rfl fun _ => i.ofJson?_abridged
      simp [ofFields?, hfields, htable, hindex]
  | removeIndex t index =>
      cases hms
      have hfields : fields? ["table", "index"] (ofMembers ms') =
          some ms' := h.fields? rfl distinct
      have htable := h.text? distinct 0 rfl rfl
      have hindex := h.text? distinct 1 rfl rfl
      simp [ofFields?, hfields, htable, hindex]
  | renameIndex t source target =>
      cases hms
      have hfields : fields? ["table", "from", "to"] (ofMembers ms') =
          some ms' := h.fields? rfl distinct
      have htable := h.text? distinct 0 rfl rfl
      have hsource := h.text? distinct 1 rfl rfl
      have htarget := h.text? distinct 2 rfl rfl
      simp [ofFields?, hfields, htable, hsource, htarget]
  | changePrimaryKey t columns =>
      cases hms
      have hfields : fields? ["table", "columns"] (ofMembers ms') =
          some ms' := h.fields? rfl distinct
      have htable := h.text? distinct 0 rfl rfl
      have hcolumns : required? ms' "columns" (list? string?) =
          some columns :=
        h.required?_of_same distinct 1 rfl rfl (list?_ofStrings columns)
      simp [ofFields?, hfields, htable, hcolumns]
  | removeView v =>
      cases hms
      have hfields : fields? ["view"] (ofMembers ms') = some ms' :=
        h.fields? rfl distinct
      have hview := h.text? distinct 0 rfl rfl
      simp [ofFields?, hfields, hview]

/-- An edit that is written in full is a shorter form of itself, with the
layout of its own kind. -/
theorem abridged_refl (e : SchemaEdit) : Abridged e.toJson e.toJson := by
  cases e <;>
    exact ⟨_, _, _, rfl, rfl, .refl rfl (by
      simp [layout, Table.abridged_refl, Column.abridged_refl,
        Index.abridged_refl])⟩

end SchemaEdit

/-! ### Edits that are kept before they are read -/

section Plain

variable (levels : Nat)

/-- A text lies at no depth and holds no number. -/
@[simp]
theorem isPlain_ofString (s : String) :
    (ofString s).isPlain levels = true := by
  simp [ofString, isPlain]

/-- Nor does a flag. -/
@[simp]
theorem isPlain_bool (b : Bool) : (Json.bool b).isPlain levels = true := by
  simp [isPlain]

/-- The numbers of a column are far inside of what is finite as a float. -/
@[simp]
theorem isPlain_uint32 (n : UInt32) :
    (Json.ofInt n.toNat).isPlain levels = true := by
  have hn : n.toNat < UInt32.size := n.toNat_lt_size
  have habs : (n.toNat : Int).natAbs < Nat.pow 2 64 :=
    Nat.lt_trans hn (by decide)
  simp [Json.ofInt, isPlain, Number.isFinite_ofInt habs]

/-- So are those with a sign, which reach further down than up. -/
@[simp]
theorem isPlain_int64 (n : Int64) :
    (Json.ofInt n.toInt).isPlain levels = true := by
  have hlow := n.minValue_le_toInt
  have hhigh := n.toInt_le
  have hmin : Int64.minValue.toInt = -9223372036854775808 := by decide
  have hmax : Int64.maxValue.toInt = 9223372036854775807 := by decide
  have hpow : Nat.pow 2 64 = 18446744073709551616 := by decide
  have habs : n.toInt.natAbs < Nat.pow 2 64 := by omega
  simp [Json.ofInt, isPlain, Number.isFinite_ofInt habs]

/-- The texts of a list lie one level below it. -/
@[simp]
theorem isPlain_ofStrings (texts : List String) :
    (ofStrings texts).isPlain (levels + 1) = true :=
  isPlain_array.mpr fun _ hv => by
    obtain ⟨s, -, rfl⟩ := List.mem_map.mp hv
    exact isPlain_ofString levels s

/-- So do the items of a list of any kind, however deep each of them goes. -/
theorem isPlain_array_map {α : Type} {write : α → Json}
    (h : ∀ x, (write x).isPlain levels = true) (items : List α) :
    (Json.array (items.map write)).isPlain (levels + 1) = true :=
  isPlain_array.mpr fun _ hv => by
    obtain ⟨x, -, rfl⟩ := List.mem_map.mp hv
    exact h x

/-- A column has no parts: it goes one level deep. -/
@[simp]
theorem Column.isPlain_toJson (c : Column) :
    c.toJson.isPlain (levels + 1) = true := by
  refine isPlain_ofMembers.mpr ?_
  obtain ⟨_, _, _, _, _, _, _, _, _ | _⟩ := c <;>
    simp [members, DataType.toJson, isPlain]

/-- An index holds a list of names, which takes a second level. -/
@[simp]
theorem Index.isPlain_toJson (i : Index) :
    i.toJson.isPlain (levels + 2) = true :=
  isPlain_ofMembers.mpr (by simp [members])

/-- A table holds lists of indexes, and these come to rest two levels deeper.
-/
@[simp]
theorem Table.isPlain_toJson (t : Table) :
    t.toJson.isPlain (levels + 4) = true := by
  have hcolumns := isPlain_array_map (levels + 2)
    (fun c => Column.isPlain_toJson (levels + 1) c) t.columns
  have hindexes := isPlain_array_map (levels + 2)
    (fun i => Index.isPlain_toJson levels i) t.indexes
  exact isPlain_ofMembers.mpr (by simp [members, hcolumns, hindexes])

/-- Every edit can be kept as a whole. -/
theorem SchemaEdit.isPlain_toJson (e : SchemaEdit) :
    e.toJson.isPlain (levels + 5) = true := by
  refine isPlain_ofMembers.mpr ?_
  cases e <;> simp [members]

end Plain

/-- No field of a column is a record, so leaving one out makes nothing
deeper. -/
theorem Column.keepsPlain : KeepsPlain Column.Abridged :=
  .object (by simp [layout, KeepsPlain.same])

/-- The same for an index. -/
theorem Index.keepsPlain : KeepsPlain Index.Abridged :=
  .object (by simp [layout, KeepsPlain.same])

/-- The columns and the indexes of a table may be shortened as well, and none
of that makes it deeper. -/
theorem Table.keepsPlain : KeepsPlain Table.Abridged :=
  .object (by
    simp [layout, KeepsPlain.same, KeepsPlain.array Column.keepsPlain,
      KeepsPlain.array Index.keepsPlain])

namespace SchemaEdit

/-- An edit has one more field than its layout says, its tag, which always
stays. -/
theorem keepsPlain : KeepsPlain Abridged := by
  rintro levels _ _ ⟨kind, ms, ms', rfl, rfl, h⟩
  -- Next to its other fields, the kind is a field as any other.
  have hfields : ∀ f ∈ ({ name := "kind" } : Field) :: layout kind,
      KeepsPlain f.Abridged := by
    unfold layout
    split <;> simp [KeepsPlain.same, Column.keepsPlain, Index.keepsPlain,
      Table.keepsPlain]
  exact KeepsPlain.object hfields levels _ _
    ⟨_, _, rfl, rfl, .keep (f := { name := "kind" }) rfl h⟩

/-- An edit is read back from what is left of it, unless it lies too
deep to be kept. -/
theorem ofJson?_abridged {depth : Nat} (hdepth : depth + 5 ≤ maxDepth)
    (e : SchemaEdit) {j : Json} (h : Abridged e.toJson j) :
    ofJson? depth j = some e := by
  obtain ⟨levels, hlevels⟩ := Nat.exists_eq_add_of_le hdepth
  have hplain : j.isPlain (maxDepth - depth) = true := by
    have hroom : maxDepth - depth = levels + 5 := by omega
    rw [hroom]
    exact keepsPlain _ _ _ h (e.isPlain_toJson levels)
  obtain ⟨kind, ms, ms', hms, rfl, h⟩ := h
  have hkind : "kind" ∉ ms'.map Prod.fst := fun hmem =>
    kind_not_mem_layout kind (h.sublist.subset hmem)
  rw [ofJson?, if_pos hplain, split?_ofMembers hkind]
  exact e.ofFields?_abridged (ofMembers_injective hms) h

end SchemaEdit

/-! ### Steps and snapshots -/

namespace UpgradeStep

/-- The edits of a step are lists of what may be shortened, each by itself.
-/
theorem abridged_refl (s : UpgradeStep) : Abridged s.toJson s.toJson :=
  ⟨_, _, rfl, rfl, .refl rfl (by
    simp [layout, members, AbridgedArray.refl SchemaEdit.abridged_refl])⟩

/-- A step is read back from what is left of it, unless it lies too deep
for its edits. -/
theorem ofJson?_abridged {depth : Nat} (hdepth : depth + 7 ≤ maxDepth)
    (s : UpgradeStep) {j : Json} (h : Abridged s.toJson j) :
    ofJson? depth j = some s := by
  have hedit : depth + 2 + 5 ≤ maxDepth := hdepth
  obtain ⟨ms, ms', hms, rfl, h⟩ := h
  obtain rfl : s.members = ms := ofMembers_injective hms
  have distinct : (layout.map Field.name).Nodup := by decide
  have hfields : (ofMembers ms').fields? fieldNames = some ms' :=
    h.fields? rfl distinct
  have hid := h.text? distinct 0 rfl rfl
  have hsequence : required? ms' "sequence" uint64OfJson? =
      some s.sequence :=
    h.required?_of_same distinct 1 rfl rfl (uint64OfJson?_ofInt s.sequence)
  have hdescription : defaulted? ms' "description" "" string? =
      some s.description :=
    h.defaulted?_of_same distinct 2 rfl rfl rfl rfl
  -- An edit lies two levels below its step.
  have hedits : defaulted? ms' "edits" []
      (list? (SchemaEdit.ofJson? (depth + 2))) = some s.edits :=
    h.defaulted? distinct 3 rfl rfl rfl rfl
      (list?_array_map fun e _ => e.ofJson?_abridged hedit e.abridged_refl)
      fun _ hv =>
        AbridgedArray.list? (fun e _ _ => e.ofJson?_abridged hedit) hv
  simp only [ofJson?, hfields, hid, hsequence, hdescription, hedits,
    Option.bind_eq_bind, Option.bind_some]
  rfl

end UpgradeStep

namespace Snapshot

/-- A snapshot is read back from what is left of it. -/
theorem ofJson?_abridged (s : Snapshot) {j : Json}
    (h : Abridged s.toJson j) : ofJson? j = some s := by
  obtain ⟨ms, ms', hms, rfl, h⟩ := h
  obtain rfl := ofMembers_injective hms
  have distinct : (layout.map Field.name).Nodup := by decide
  have hfields : (ofMembers ms').fields? fieldNames = some ms' :=
    h.fields? rfl distinct
  have htables : defaulted? ms' "tables" []
      (list? (Table.ofJson? isNull)) = some s.tables :=
    h.defaulted? distinct 0 rfl rfl rfl rfl
      (list?_array_map fun t _ => t.ofJson?_toJson isNull) fun _ hv =>
        AbridgedArray.list? (fun t _ _ => t.ofJson?_abridged isNull) hv
  have hviews : defaulted? ms' "views" [] (list? string?) =
      some s.views :=
    h.defaulted?_of_same distinct 1 rfl rfl rfl (list?_ofStrings s.views)
  simp only [ofJson?, hfields, htables, hviews, Option.bind_eq_bind,
    Option.bind_some]
  rfl

end Snapshot

/-- Whatever is kept between runs or handed to one is read back from its
JSON, and also when any of the fields that have a default, at any depth,
have been left out where they hold it. An edit and a step may lie as deep
in a text as leaves room for what they hold themselves. The text of a
snapshot is accepted when its tables are valid and share no name. -/
theorem format_reads_back :
    (∀ isEmpty, ReadsBack Column.toJson Column.Abridged
      (Column.ofJson? isEmpty)) ∧
    ReadsBack Index.toJson Index.Abridged Index.ofJson? ∧
    (∀ isEmpty, ReadsBack Table.toJson Table.Abridged
      (Table.ofJson? isEmpty)) ∧
    (∀ depth, depth + 5 ≤ maxDepth →
      ReadsBack SchemaEdit.toJson SchemaEdit.Abridged
        (SchemaEdit.ofJson? depth)) ∧
    (∀ depth, depth + 7 ≤ maxDepth →
      ReadsBack UpgradeStep.toJson UpgradeStep.Abridged
        (UpgradeStep.ofJson? depth)) ∧
    ReadsBack Snapshot.toJson Snapshot.Abridged Snapshot.ofJson? ∧
    ∀ s : Snapshot, (Snapshot.ofText s.toText).isOk ↔
      (∀ t ∈ s.tables, t.validate = .ok ()) ∧
      s.tables.Pairwise fun t u => ¬ Text.SameName t.name u.name := by
  refine ⟨fun isEmpty c => ⟨c.ofJson?_toJson isEmpty, fun j =>
      c.ofJson?_abridged isEmpty⟩,
    fun i => ⟨i.ofJson?_toJson, fun j => i.ofJson?_abridged⟩,
    fun isEmpty t => ⟨t.ofJson?_toJson isEmpty, fun j =>
      t.ofJson?_abridged isEmpty⟩,
    fun depth hdepth e => ⟨e.ofJson?_abridged hdepth e.abridged_refl,
      fun j => e.ofJson?_abridged hdepth⟩,
    fun depth hdepth s => ⟨s.ofJson?_abridged hdepth s.abridged_refl,
      fun j => s.ofJson?_abridged hdepth⟩,
    fun s => ⟨s.ofJson?_toJson, fun j => s.ofJson?_abridged⟩, fun s => ?_⟩
  -- A snapshot is accepted if it is valid, and the text of a snapshot holds
  -- just that snapshot.
  rw [isOk_iff]
  constructor
  · rintro ⟨read, hread⟩
    obtain ⟨hvalid, hdistinct⟩ :=
      (Snapshot.ofText_toText_eq_ok_iff.mp hread).1
    exact ⟨hvalid, hdistinct⟩
  · rintro ⟨hvalid, hdistinct⟩
    exact ⟨s, Snapshot.ofText_toText_eq_ok_iff.mpr
      ⟨⟨hvalid, hdistinct⟩, rfl⟩⟩

/-- A step with the greatest number and with no description. It adds a
column of which nothing is said but its name and its type. -/
theorem badgeStep_reads_back :
    let step : UpgradeStep :=
      { id := "badge", sequence := 18446744073709551615
        edits := [.addColumn "Staff" { name := "Badge", type := .integer }] }
    let column := ofMembers
      [("name", .ofString "Badge"), ("data_type", .ofString "INTEGER")]
    let edit := ofMembers
      [("kind", .ofString "add_column"), ("table", .ofString "Staff"),
        ("column", column)]
    let text := ofMembers
      [("id", .ofString "badge"), ("sequence", .ofInt 18446744073709551615),
        ("edits", .array [edit])]
    1 + 7 ≤ maxDepth ∧ UpgradeStep.Abridged step.toJson text ∧
      UpgradeStep.ofJson? 1 text = some step := by
  intro step column edit text
  -- The fields that are left out are those whose stand-ins the full text
  -- has.
  have hcolumn : Column.Abridged
      (Column.toJson { name := "Badge", type := .integer }) column :=
    ⟨_, _, rfl, rfl, .keep rfl (.keep rfl (.leaveOut rfl (.leaveOut rfl
      (.leaveOut rfl (.leaveOut rfl (.leaveOut rfl (.leaveOut rfl
        (.leaveOut rfl .nil))))))))⟩
  have hedit : AbridgedArray SchemaEdit.Abridged
      (.array (step.edits.map SchemaEdit.toJson)) (.array [edit]) :=
    ⟨_, _, rfl, rfl, .cons
      ⟨_, _, _, rfl, rfl, .keep rfl (.keep hcolumn .nil)⟩ .nil⟩
  have htext : UpgradeStep.Abridged step.toJson text :=
    ⟨_, _, rfl, rfl, .keep rfl (.keep rfl (.leaveOut rfl
      (.keep hedit .nil)))⟩
  obtain ⟨-, -, -, -, hsteps, -⟩ := format_reads_back
  exact ⟨by decide, htext, (hsteps 1 (by decide) step).2 text htext⟩

end SchemaEvolution

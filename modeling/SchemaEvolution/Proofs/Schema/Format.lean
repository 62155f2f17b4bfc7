import SchemaEvolution.Proofs.Json.RoundTrip
import SchemaEvolution.Proofs.Json.Words
import SchemaEvolution.Schema.Format

/-!
# `SchemaEvolution.Proofs.Schema.Format`: a schema that was written is read

Every field of a table is read back as it was written, whatever stands
in it: no field is left out, and no value that could stand in for one is
taken in its place. What is written can also be spelled.

* `uint32OfJson?_ofInt`, `uint64OfJson?_ofInt`, `int64OfJson?_ofInt`:
  numbers of a fixed size are read back.
* `list?_array_map`: a list is read back if each of its items is.
* `Column.ofJson?_toJson`, `Index.ofJson?_toJson`,
  `Table.ofJson?_toJson`: so are the parts of a schema.
* `Table.spelled_toJson`: the value of a table can be spelled.
-/

set_option autoImplicit false

namespace SchemaEvolution

open SchemaEvolution.Json

/-! ### Numbers and lists -/

namespace Json

/-- A number between the bounds is read back, whatever the bounds are. -/
theorem integer?_ofInt {low high i : Int} (h : low ≤ i ∧ i ≤ high) :
    (Json.ofInt i).integer? low high = some i := by
  simp [Json.ofInt, integer?, Number.toInt?_ofInt, h]

/-- A list is read back if each of its items is. -/
theorem list?_array_map {α : Type} {read : Json → Option α}
    {write : α → Json} {items : List α}
    (h : ∀ v ∈ items, read (write v) = some v) :
    list? read (.array (items.map write)) = some items := by
  show (items.map write).mapM read = some items
  induction items with
  | nil => rfl
  | cons v rest ih =>
      have hrest := ih fun w hw => h w (List.mem_cons_of_mem v hw)
      rw [List.map_cons, List.mapM_cons, h v List.mem_cons_self, hrest]
      rfl

/-- A list of texts is read back, with what it holds twice and the empty one.
-/
@[simp]
theorem list?_ofStrings (texts : List String) :
    list? string? (ofStrings texts) = some texts :=
  list?_array_map fun _ _ => rfl

/-- An object can be spelled if its members can. -/
theorem spelled_ofMembers {members : List (String × Json)}
    (h : ∀ m ∈ members, m.2.Spelled) : (ofMembers members).Spelled :=
  membersSpelled_iff.mpr fun _ hm => by
    obtain ⟨m, hmem, rfl⟩ := List.mem_map.mp hm
    exact h m hmem

/-- An array can be spelled if its items can. -/
theorem spelled_array_map {α : Type} {write : α → Json} {items : List α}
    (h : ∀ v ∈ items, (write v).Spelled) :
    (Json.array (items.map write)).Spelled :=
  itemsSpelled_iff.mpr fun _ hv => by
    obtain ⟨v, hmem, rfl⟩ := List.mem_map.mp hv
    exact h v hmem

/-- A text is read back as it is. -/
@[simp]
theorem string?_ofString (s : String) : (ofString s).string? = some s := rfl

/-- `null` stands for no text, which is not the empty one. -/
@[simp]
theorem optionalString?_null : Json.null.optionalString? = some none := rfl

/-- A text where there need be none is read as a text, also the empty one. -/
@[simp]
theorem optionalString?_ofString (s : String) :
    (ofString s).optionalString? = some (some s) := rfl

/-- The value for no text can be spelled. -/
@[simp]
theorem spelled_null : Json.null.Spelled := trivial

/-- So can every text, whatever characters are in it. -/
@[simp]
theorem spelled_ofString (s : String) : (ofString s).Spelled := trivial

/-- So can a flag. -/
@[simp]
theorem spelled_bool (b : Bool) : (Json.bool b).Spelled := trivial

/-- So can a whole number, which is written without a point. -/
@[simp]
theorem spelled_ofInt (i : Int) : (Json.ofInt i).Spelled :=
  Number.spelled_ofInt i

/-- So can a list of texts. -/
@[simp]
theorem spelled_ofStrings (texts : List String) :
    (ofStrings texts).Spelled :=
  spelled_array_map fun _ _ => trivial

end Json

/-- A number of 32 bits is between the bounds by its type. -/
@[simp]
theorem uint32OfJson?_ofInt (n : UInt32) :
    uint32OfJson? (.ofInt n.toNat) = some n := by
  have hn := n.toNat_lt_size
  rw [uint32OfJson?, integer?_ofInt (by omega)]
  simp

/-- So is one of 64 bits. -/
@[simp]
theorem uint64OfJson?_ofInt (n : UInt64) :
    uint64OfJson? (.ofInt n.toNat) = some n := by
  have hn := n.toNat_lt_size
  rw [uint64OfJson?, integer?_ofInt (by omega)]
  simp

/-- So is one with a sign, the smallest included. -/
@[simp]
theorem int64OfJson?_ofInt (n : Int64) :
    int64OfJson? (.ofInt n.toInt) = some n := by
  rw [int64OfJson?, integer?_ofInt ⟨n.minValue_le_toInt, n.toInt_le⟩]
  simp

/-! ### Columns -/

namespace Column

/-- A column is read back. -/
@[simp]
theorem ofJson?_toJson (isEmpty : Json → Bool) (c : Column) :
    ofJson? isEmpty c.toJson = some c := by
  have hfields : c.toJson.fields? fieldNames = some c.members :=
    fields?_ofMembers (by simp [members, fieldNames]) (by simp [members])
  rw [ofJson?, hfields]
  obtain ⟨_, _, _, _, _, _, _, _, _ | _⟩ := c <;>
    simp [members, required?, defaulted?, List.lookup_cons, bool?,
      DataType.ofJson?_toJson]

/-- Its value can be spelled. -/
@[simp]
theorem spelled_toJson (c : Column) : c.toJson.Spelled := by
  refine spelled_ofMembers ?_
  obtain ⟨_, _, _, _, _, _, _, _, _ | _⟩ := c <;>
    simp [members, DataType.toJson]

end Column

/-! ### Indexes -/

namespace Index

/-- An index is read back. -/
@[simp]
theorem ofJson?_toJson (i : Index) : ofJson? i.toJson = some i := by
  have hfields : i.toJson.fields? fieldNames = some i.members :=
    fields?_ofMembers (by simp [members, fieldNames]) (by simp [members])
  rw [ofJson?, hfields]
  simp [members, required?, defaulted?, List.lookup_cons, bool?]

/-- Its value can be spelled. -/
@[simp]
theorem spelled_toJson (i : Index) : i.toJson.Spelled :=
  spelled_ofMembers (by simp [members])

end Index

/-! ### Tables -/

namespace Table

/-- A table is read back. -/
@[simp]
theorem ofJson?_toJson (isEmpty : Json → Bool) (t : Table) :
    ofJson? isEmpty t.toJson = some t := by
  have hfields : t.toJson.fields? fieldNames = some t.members :=
    fields?_ofMembers (by simp [members, fieldNames]) (by simp [members])
  rw [ofJson?, hfields]
  simp [members, required?, defaulted?, List.lookup_cons, bool?,
    list?_array_map]

/-- Its value can be spelled. -/
@[simp]
theorem spelled_toJson (t : Table) : t.toJson.Spelled :=
  spelled_ofMembers (by simp [members, spelled_array_map])

end Table

end SchemaEvolution

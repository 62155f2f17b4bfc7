import SchemaEvolution.Json.Magnitude

/-!
# `SchemaEvolution.Json.Record`: values with named fields

A record is written as an object, whose keys may stand in any order
and among others, or as an array of its fields in their declared
order, of which the last ones may be left out. `fields?` brings both
forms to one: the fields that are there, with their names.

* `fields?_ofMembers`: an object whose keys are distinct field names
  has exactly its members as fields.
-/

set_option autoImplicit false

namespace SchemaEvolution.Json

open SchemaEvolution.Text

/-- The keys of an object, if every one of them spells a text. -/
def keys? (members : List (Json.Text × Json)) :
    Option (List (String × Json)) :=
  members.mapM fun (key, value) => key.map fun k => (k, value)

/-- The fields of a record whose fields are called `names`. No field
may be given twice, and an array may not be longer than the record. -/
def fields? (names : List String) : Json → Option (List (String × Json))
  | .object members => do
      let known := (← keys? members).filter fun m => names.contains m.1
      if (known.map Prod.fst).Nodup then some known else none
  | .array items =>
      if items.length ≤ names.length then some (names.zip items)
      else none
  | _ => none

/-- A field that has to be there. -/
def required? {α : Type} (fields : List (String × Json)) (name : String)
    (read : Json → Option α) : Option α := do
  read (← fields.lookup name)

/-- A field with a value that stands in when it is left out. -/
def defaulted? {α : Type} (fields : List (String × Json)) (name : String)
    (absent : α) (read : Json → Option α) : Option α :=
  match fields.lookup name with
  | some v => read v
  | none => some absent

/-! ### Values that are kept before they are read -/

mutual

/-- Whether a value can be kept as a whole before it is read: its
strings spell texts, its numbers are finite and its arrays and objects
lie at most `levels` deep in one another. -/
def isPlain (levels : Nat) : Json → Bool
  | .null => true
  | .bool _ => true
  | .number n => n.isFinite
  | .string s => s.isSome
  | .array items => 0 < levels && arePlain (levels - 1) items
  | .object members => 0 < levels && membersPlain (levels - 1) members

/-- Whether the items of an array can be kept. -/
def arePlain (levels : Nat) : List Json → Bool
  | [] => true
  | v :: rest => isPlain levels v && arePlain levels rest

/-- Whether the members of an object can be kept. -/
def membersPlain (levels : Nat) : List (Json.Text × Json) → Bool
  | [] => true
  | (key, v) :: rest =>
      key.isSome && isPlain levels v && membersPlain levels rest

end

/-! ### Objects made of their fields -/

/-- The keys of an object made of texts. -/
theorem keys?_ofMembers (members : List (String × Json)) :
    keys? (members.map fun (key, value) => (some key, value))
      = some members := by
  induction members with
  | nil => rfl
  | cons m rest ih =>
      simp only [keys?, List.map_cons, List.mapM_cons] at ih ⊢
      simp [ih]

/-- An object whose keys are distinct field names has exactly its
members as fields. -/
theorem fields?_ofMembers {names : List String}
    {members : List (String × Json)}
    (known : ∀ m ∈ members, m.1 ∈ names)
    (distinct : (members.map Prod.fst).Nodup) :
    fields? names (ofMembers members) = some members := by
  have hall : members.filter (fun m => names.contains m.1) = members :=
    List.filter_eq_self.mpr fun m hm => by simpa using known m hm
  simp only [fields?, ofMembers, keys?_ofMembers, Option.bind_eq_bind,
    Option.bind_some, hall, if_pos distinct]

end SchemaEvolution.Json

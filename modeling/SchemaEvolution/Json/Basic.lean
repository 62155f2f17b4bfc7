import SchemaEvolution.Text.Basic

/-!
# `SchemaEvolution.Json.Basic`: JSON values

A `Json` keeps what a text says and no more: the members of an object
in their order, repeated keys included, and a number digit by digit.

* `Json.Number.toInt?_ofInt`: an integer is read back from its number.
-/

set_option autoImplicit false

namespace SchemaEvolution

open SchemaEvolution.Text

/-- A number as it is spelled: its digits before and after the point,
and the sign and digits of its exponent. -/
structure Json.Number where
  negative : Bool
  whole : List Char
  fraction : List Char
  exponent : Option (Bool × List Char)
deriving DecidableEq

/-- What a JSON string spells. A string in which an escape names half
of a surrogate pair spells no text. -/
abbrev Json.Text := Option String

/-- A JSON value. -/
inductive Json where
  | null
  | bool (b : Bool)
  | number (n : Json.Number)
  | string (s : Json.Text)
  | array (items : List Json)
  | object (members : List (Json.Text × Json))

namespace Json

/-- The value of a text. -/
def ofString (s : String) : Json := .string (some s)

/-- An object with these members. -/
def ofMembers (members : List (String × Json)) : Json :=
  .object (members.map fun (key, value) => (some key, value))

/-- An array of texts. -/
def ofStrings (texts : List String) : Json :=
  .array (texts.map ofString)

namespace Number

/-- The number of an integer. -/
def ofInt (i : Int) : Number where
  negative := i < 0
  whole := Nat.toDigits 10 i.natAbs
  fraction := []
  exponent := none

/-- The integer that a number spells. A number with a point or an
exponent spells none, and neither does a zero with a sign. -/
def toInt? (n : Number) : Option Int :=
  if n.fraction.isEmpty && n.exponent.isNone then
    let size := digitsValue n.whole
    if n.negative then (if size = 0 then none else some (-size))
    else some size
  else none

/-- An integer is read back from its number. -/
theorem toInt?_ofInt (i : Int) : (ofInt i).toInt? = some i := by
  simp only [toInt?, ofInt, digitsValue_toDigits, List.isEmpty_nil,
    Option.isNone_none, Bool.and_true]
  by_cases h : i < 0
  · have size : i.natAbs ≠ 0 := by omega
    have value : -(i.natAbs : Int) = i := by omega
    simp only [h, decide_true, if_true, size, if_false, value]
  · have value : (i.natAbs : Int) = i := by omega
    simp only [h, decide_false, if_true, Bool.false_eq_true, if_false,
      value]

end Number

/-- The value of an integer. -/
def ofInt (i : Int) : Json := .number (.ofInt i)

/-- The text that a value is, if it is one. -/
def string? : Json → Option String
  | .string s => s
  | _ => none

/-- The truth value that a value is, if it is one. -/
def bool? : Json → Option Bool
  | .bool b => some b
  | _ => none

/-- The integer that a value is, if it is one from `low` to `high`. -/
def integer? (low high : Int) : Json → Option Int
  | .number n => do
      let i ← n.toInt?
      if low ≤ i ∧ i ≤ high then some i else none
  | _ => none

/-- The items of an array. -/
def array? : Json → Option (List Json)
  | .array items => some items
  | _ => none

/-- The items of an array, each read by `read`. -/
def list? {α : Type} (read : Json → Option α) (j : Json) :
    Option (List α) := do
  (← j.array?).mapM read

/-- The text that a value is, or nothing for `null`. -/
def optionalString? : Json → Option (Option String)
  | .null => some none
  | j => j.string?.map some

end Json

end SchemaEvolution

import SchemaEvolution.Json.Token

/-!
# `SchemaEvolution.Json.Parser`: from tokens to a value

A value is built token by token. A `State` says what the tokens so far
have opened and what may come next, so reading is one fold and depth
costs nothing but memory.

* `State.step_closeBracket`, `State.step_closeBrace`: a closing
  bracket hands the finished value to what encloses it.
-/

set_option autoImplicit false

namespace SchemaEvolution.Json

/-- An array or an object that has been opened and not closed, with
what it holds so far, the latest first. An object waits for the value
of `key`. -/
inductive Frame where
  | array (before : List Json)
  | object (before : List (Json.Text × Json)) (key : Json.Text)

/-- What may come next, and the open frames around it, the innermost
first. -/
inductive State where
  /-- A value. -/
  | value (frames : List Frame)
  /-- A value or the end of the array. -/
  | firstItem (frames : List Frame)
  /-- A key or the end of the object. -/
  | firstKey (frames : List Frame)
  /-- A key. -/
  | key (before : List (Json.Text × Json)) (frames : List Frame)
  /-- A colon. -/
  | colon (before : List (Json.Text × Json)) (key : Json.Text)
      (frames : List Frame)
  /-- A comma or the end of the innermost frame. -/
  | ended (v : Json) (frames : List Frame)

namespace State

/-- The first token of a value. -/
def beginValue (frames : List Frame) : Token → Option State
  | .openBracket => some (.firstItem frames)
  | .openBrace => some (.firstKey frames)
  | .null => some (.ended .null frames)
  | .bool b => some (.ended (.bool b) frames)
  | .number n => some (.ended (.number n) frames)
  | .string s => some (.ended (.string s) frames)
  | _ => none

/-- One more token. -/
def step : State → Token → Option State
  | .value frames, t => beginValue frames t
  | .firstItem frames, .closeBracket => some (.ended (.array []) frames)
  | .firstItem frames, t => beginValue (.array [] :: frames) t
  | .firstKey frames, .closeBrace => some (.ended (.object []) frames)
  | .firstKey frames, .string k => some (.colon [] k frames)
  | .key before frames, .string k => some (.colon before k frames)
  | .colon before k frames, .colon =>
      some (.value (.object before k :: frames))
  | .ended v (.array before :: frames), .comma =>
      some (.value (.array (v :: before) :: frames))
  | .ended v (.array before :: frames), .closeBracket =>
      some (.ended (.array (v :: before).reverse) frames)
  | .ended v (.object before k :: frames), .comma =>
      some (.key ((k, v) :: before) frames)
  | .ended v (.object before k :: frames), .closeBrace =>
      some (.ended (.object ((k, v) :: before).reverse) frames)
  | _, _ => none

/-- The value, once nothing is open any more. -/
def result? : State → Option Json
  | .ended v [] => some v
  | _ => none

/-- A closing bracket ends the innermost array. -/
theorem step_closeBracket (v : Json) (before : List Json)
    (frames : List Frame) :
    step (.ended v (.array before :: frames)) .closeBracket
      = some (.ended (.array (before.reverse ++ [v])) frames) := by
  simp [step]

/-- A closing brace ends the innermost object. -/
theorem step_closeBrace (v : Json) (before : List (Json.Text × Json))
    (k : Json.Text) (frames : List Frame) :
    step (.ended v (.object before k :: frames)) .closeBrace
      = some (.ended (.object (before.reverse ++ [(k, v)])) frames) := by
  simp [step]

end State

/-- The value that the whole text spells, if it spells one. -/
def parse? (s : String) : Option Json := do
  let tokens ← lex? s.toList
  let final ← tokens.foldlM State.step (.value [])
  final.result?

end SchemaEvolution.Json

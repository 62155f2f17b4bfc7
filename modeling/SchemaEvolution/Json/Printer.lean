import SchemaEvolution.Json.Basic

/-!
# `SchemaEvolution.Json.Printer`: the two written forms of a value

`compact` writes no white space. `pretty` puts every item and member
on a line of its own, two blanks further in than what encloses it; an
empty array or object stays on one line. Strings escape the quote, the
backslash and the control characters below U+0020, and nothing else.
-/

set_option autoImplicit false

namespace SchemaEvolution.Json

/-- The hexadecimal digit of a number below 16. -/
def hexDigit (n : Nat) : Char :=
  if n < 10 then Char.ofNat ('0'.toNat + n)
  else Char.ofNat ('a'.toNat + (n - 10))

/-- A character as it stands in a string. -/
def escapeChar (c : Char) : List Char :=
  if c = '"' then ['\\', '"']
  else if c = '\\' then ['\\', '\\']
  else if c = '\x08' then ['\\', 'b']
  else if c = '\x0c' then ['\\', 'f']
  else if c = '\n' then ['\\', 'n']
  else if c = '\r' then ['\\', 'r']
  else if c = '\t' then ['\\', 't']
  else if c.toNat < 0x20 then
    ['\\', 'u', '0', '0', hexDigit (c.toNat / 16), hexDigit (c.toNat % 16)]
  else [c]

/-- A string with its quotes. A string that spells no text is written
as half of a surrogate pair, which spells none either. -/
def quote : Json.Text → String
  | some s =>
      "\"" ++ String.ofList (s.toList.flatMap escapeChar) ++ "\""
  | none => "\"\\ud800\""

/-- A number, digit by digit. -/
def Number.text (n : Number) : String :=
  (if n.negative then "-" else "") ++ String.ofList n.whole ++
    (if n.fraction.isEmpty then ""
     else "." ++ String.ofList n.fraction) ++
    match n.exponent with
    | none => ""
    | some (negative, ds) =>
        (if negative then "e-" else "e") ++ String.ofList ds

/-! ### Without white space -/

mutual

/-- The value without white space. -/
def compact : Json → String
  | .null => "null"
  | .bool b => if b then "true" else "false"
  | .number n => n.text
  | .string s => quote s
  | .array items => "[" ++ ",".intercalate (compactItems items) ++ "]"
  | .object members =>
      "\x7b" ++ ",".intercalate (compactMembers members) ++ "\x7d"

/-- The items of an array without white space. -/
def compactItems : List Json → List String
  | [] => []
  | v :: rest => compact v :: compactItems rest

/-- The members of an object without white space. -/
def compactMembers : List (Json.Text × Json) → List String
  | [] => []
  | (key, v) :: rest =>
      (quote key ++ ":" ++ compact v) :: compactMembers rest

end

/-! ### Line by line -/

/-- The end of a line, and the indentation of the next one. -/
def newLine (depth : Nat) : String :=
  "\n" ++ String.ofList (List.replicate (2 * depth) ' ')

/-- Lines at one depth between an opening and a closing bracket. -/
def block (depth : Nat) (opening closing : String)
    (entries : List String) : String :=
  if entries.isEmpty then opening ++ closing
  else
    opening ++ newLine (depth + 1) ++
      ("," ++ newLine (depth + 1)).intercalate entries ++
      newLine depth ++ closing

mutual

/-- The value line by line, where `depth` frames enclose it. -/
def prettyAt (depth : Nat) : Json → String
  | .null => "null"
  | .bool b => if b then "true" else "false"
  | .number n => n.text
  | .string s => quote s
  | .array items => block depth "[" "]" (prettyItems (depth + 1) items)
  | .object members =>
      block depth "\x7b" "\x7d" (prettyMembers (depth + 1) members)

/-- The items of an array line by line. -/
def prettyItems (depth : Nat) : List Json → List String
  | [] => []
  | v :: rest => prettyAt depth v :: prettyItems depth rest

/-- The members of an object line by line. -/
def prettyMembers (depth : Nat) :
    List (Json.Text × Json) → List String
  | [] => []
  | (key, v) :: rest =>
      (quote key ++ ": " ++ prettyAt depth v) ::
        prettyMembers depth rest

end

/-- The value line by line. -/
def pretty (j : Json) : String := prettyAt 0 j

end SchemaEvolution.Json

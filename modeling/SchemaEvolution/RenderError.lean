import SchemaEvolution.Schema.Basic

/-!
# `SchemaEvolution.RenderError`: why SQL cannot be written

One constructor per cause; `RenderError.message` is the only place
that knows the wording. A dialect that cannot express what it is asked
for is the one cause that is no fault of the input.
-/

set_option autoImplicit false

namespace SchemaEvolution

/-- Why a statement cannot be written. -/
inductive RenderError where
  | blankTableName
  | duplicateColumn (table column : String)
  | unknownIndexColumn (table index column : String)
  | invalidDecimal (text : String)
  | invalidDefault (table column value : String)
  | unmappedType (type : DataType)
  | indexNotFound (table source target : String)
  | wrongArgumentCount (function : String) (expected actual : Nat)
  | unnamedField (table : String)
  | unnamedMergeKey (table : String)
  | unsupported (dialect request : String)
deriving DecidableEq

namespace RenderError

/-- The wording of an error. -/
def message : RenderError → String
  | .blankTableName => "Cannot create SQL for a blank table name"
  | .duplicateColumn table column =>
      "Table '" ++ table ++ "' declares column '" ++ column ++
        "' more than once"
  | .unknownIndexColumn table index column =>
      "Index '" ++ index ++ "' on table '" ++ table ++
        "' references unknown column '" ++ column ++ "'"
  | .invalidDecimal text => "Invalid decimal literal [" ++ text ++ "]"
  | .invalidDefault table column value =>
      "Column '" ++ column ++ "' on table '" ++ table ++
        "' has invalid default [" ++ value ++ "]"
  | .unmappedType type =>
      "Cannot map column with type [" ++ type.name ++ "]"
  | .indexNotFound table source target =>
      "Neither index '" ++ source ++ "' nor index '" ++ target ++
        "' exists on table '" ++ table ++ "'"
  | .wrongArgumentCount function expected actual =>
      "Function " ++ function ++ " expects " ++ toString expected ++
        " argument(s) but was given " ++ toString actual
  | .unnamedField table =>
      "Statement on '" ++ table ++
        "' has a field without an implied name"
  | .unnamedMergeKey table =>
      "Merge into '" ++ table ++
        "' has a unique key field without a name"
  | .unsupported dialect request =>
      "Unsupported by the " ++ dialect ++ " dialect: " ++ request

/-- Whether the input is sound and the dialect has no way to express
it. -/
def isUnsupported : RenderError → Bool
  | .unsupported _ _ => true
  | _ => false

/-- Whether the input itself is at fault. -/
def isConfiguration (e : RenderError) : Bool := !e.isUnsupported

end RenderError

end SchemaEvolution

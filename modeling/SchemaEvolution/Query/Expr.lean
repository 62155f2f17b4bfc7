import SchemaEvolution.Calendar.Date
import SchemaEvolution.RenderError

/-!
# `SchemaEvolution.Query.Expr`: constants, functions and expressions

A decimal constant is kept as its text, so that no digit is lost and
two of them are equal only when they are spelled alike. The text is
checked where it is written, or by `Literal.ofDecimal`.

* `Literal.validate_decimal_iff`: the texts that pass the check.
* `FunctionKind.checkCount_fixed`: a function of fixed arity takes
  exactly that many arguments.
* `Expr.unaliased_withAlias`: an alias hides the aliases beneath it.
* `Expr.beq_iff_eq`, `Expr.beqList_iff_eq`: the structural comparison
  decides equality.
-/

set_option autoImplicit false

namespace SchemaEvolution

open SchemaEvolution.Calendar
open SchemaEvolution.Text

/-! ### Constants -/

/-- A constant. -/
inductive Literal where
  | null
  | string (s : String)
  | integer (i : Int64)
  | decimal (text : String)
  | boolean (b : Bool)
  | date (d : Date)
deriving DecidableEq, Hashable

namespace Literal

/-- The type of a constant. -/
def type : Literal → DataType
  | .null => .null
  | .string _ => .string
  | .integer _ => .bigInteger
  | .decimal _ => .decimal
  | .boolean _ => .boolean
  | .date _ => .date

/-- Checks that a decimal constant is a numeral. -/
def validate : Literal → Except RenderError Unit
  | .decimal text =>
      if Numeral.isNumeral text then .ok ()
      else .error (.invalidDecimal text)
  | _ => .ok ()

/-- The decimal constant of a numeral. -/
def ofDecimal (text : String) : Except RenderError Literal :=
  if Numeral.isNumeral text then .ok (.decimal text)
  else .error (.invalidDecimal text)

/-- A decimal constant passes the check when it is a numeral. -/
theorem validate_decimal_iff (text : String) :
    (Literal.decimal text).validate = .ok () ↔
      Numeral.isNumeral text = true := by
  simp only [validate]
  split <;> simp_all

end Literal

/-! ### Functions -/

/-- A function that every dialect knows. -/
inductive FunctionKind where
  | count
  | sum
  | min
  | max
  | average
  | coalesce
  | isNull
  | now
  | daysBetween
  | monthsBetween
  | addDays
  | addMonths
  | yyyymmddToDate
  | dateToYyyymmdd
  | dateToYyyymmddHhmmss
  | leftTrim
  | rightTrim
  | trim
  | leftPad
  | randomString
  | lastDayOfMonth
  | substring
  | length
  | upper
  | lower
  | modulo
  | round
  | floor
deriving DecidableEq, Hashable

namespace FunctionKind

/-- The name of a function, as errors give it. -/
def name : FunctionKind → String
  | .count => "COUNT"
  | .sum => "SUM"
  | .min => "MIN"
  | .max => "MAX"
  | .average => "AVG"
  | .coalesce => "COALESCE"
  | .isNull => "IS_NULL"
  | .now => "NOW"
  | .daysBetween => "DAYS_BETWEEN"
  | .monthsBetween => "MONTHS_BETWEEN"
  | .addDays => "ADD_DAYS"
  | .addMonths => "ADD_MONTHS"
  | .yyyymmddToDate => "YYYYMMDD_TO_DATE"
  | .dateToYyyymmdd => "DATE_TO_YYYYMMDD"
  | .dateToYyyymmddHhmmss => "DATE_TO_YYYYMMDDHHMMSS"
  | .leftTrim => "LEFT_TRIM"
  | .rightTrim => "RIGHT_TRIM"
  | .trim => "TRIM"
  | .leftPad => "LEFT_PAD"
  | .randomString => "RANDOM_STRING"
  | .lastDayOfMonth => "LAST_DAY_OF_MONTH"
  | .substring => "SUBSTRING"
  | .length => "LENGTH"
  | .upper => "UPPER"
  | .lower => "LOWER"
  | .modulo => "MOD"
  | .round => "ROUND"
  | .floor => "FLOOR"

/-- The number of arguments, where it is fixed. -/
def arity? : FunctionKind → Option Nat
  | .count => none
  | .coalesce => none
  | .now => some 0
  | .sum | .min | .max | .average | .yyyymmddToDate | .dateToYyyymmdd
  | .dateToYyyymmddHhmmss | .leftTrim | .rightTrim | .trim
  | .randomString | .lastDayOfMonth | .length | .upper | .lower
  | .floor => some 1
  | .isNull | .daysBetween | .monthsBetween | .addDays | .addMonths
  | .modulo | .round => some 2
  | .leftPad | .substring => some 3

/-- The number of arguments that a call with `actual` of them should
have: `COUNT` takes none or one, `COALESCE` at least one. -/
def expectedCount (kind : FunctionKind) (actual : Nat) : Nat :=
  match kind.arity? with
  | some n => n
  | none =>
      if kind = .count ∧ actual ≤ 1 then actual
      else if kind = .coalesce ∧ 1 ≤ actual then actual
      else 1

/-- Checks the number of arguments of a call. -/
def checkCount (kind : FunctionKind) (actual : Nat) :
    Except RenderError Unit :=
  if actual = kind.expectedCount actual then .ok ()
  else
    .error (.wrongArgumentCount kind.name (kind.expectedCount actual)
      actual)

/-- A function of fixed arity takes exactly that many arguments. -/
theorem checkCount_fixed {kind : FunctionKind} {n : Nat}
    (fixed : kind.arity? = some n) (actual : Nat) :
    kind.checkCount actual = .ok () ↔ actual = n := by
  unfold checkCount
  simp only [expectedCount, fixed]
  split <;> simp_all

end FunctionKind

/-! ### Expressions -/

/-- A table as a statement names it. Without a schema of its own it
lies where the dialect puts it. -/
structure TableRef where
  name : String
  schema : Option String := none
  aliasName : Option String := none
deriving DecidableEq, Hashable

/-- The name that qualifies the fields of a table. -/
def TableRef.qualifier (t : TableRef) : String :=
  t.aliasName.getD t.name

/-- A column as a statement names it. -/
structure FieldRef where
  table : Option TableRef := none
  name : String
deriving DecidableEq, Hashable

/-- The field as standard SQL writes it: behind its table's name or
alias, if it has a table. -/
def FieldRef.text (f : FieldRef) : String :=
  match f.table with
  | some t => t.qualifier ++ "." ++ f.name
  | none => f.name

/-- The four operations of arithmetic. -/
inductive Operator where
  | plus
  | minus
  | times
  | divide
deriving DecidableEq, Hashable

/-- The sign of an operation. -/
def Operator.symbol : Operator → String
  | .plus => "+"
  | .minus => "-"
  | .times => "*"
  | .divide => "/"

/-- An expression. -/
inductive Expr where
  | field (f : FieldRef)
  | literal (l : Literal)
  | call (kind : FunctionKind) (args : List Expr)
  | cast (e : Expr) (type : DataType) (width scale : UInt32)
  | arithmetic (op : Operator) (left right : Expr)
  | concat (parts : List Expr)
  | aliased (e : Expr) (name : String)

namespace Expr

/-- The field called `name`, of no particular table. -/
def ofName (name : String) : Expr := .field ⟨none, name⟩

/-- The expression without the aliases around it. -/
def unaliased : Expr → Expr
  | .aliased e _ => e.unaliased
  | e => e

/-- The expression under an alias, which takes the place of others. -/
def withAlias (e : Expr) (name : String) : Expr :=
  .aliased e.unaliased name

/-- The name that an expression has in a result: its alias, or the
name of a field. -/
def impliedName? : Expr → Option String
  | .aliased _ name => some name
  | .field f => some f.name
  | _ => none

/-- Whether an expression is arithmetic, beneath its aliases. -/
def isArithmetic : Expr → Bool
  | .aliased e _ => e.isArithmetic
  | .arithmetic _ _ _ => true
  | _ => false

/-- An alias hides the aliases beneath it. -/
theorem unaliased_withAlias (e : Expr) (name : String) :
    (e.withAlias name).unaliased = e.unaliased := by
  have idem : ∀ e : Expr, e.unaliased.unaliased = e.unaliased := by
    intro e
    fun_induction unaliased e with
    | case1 e _ ih => exact ih
    | case2 e h => cases e <;> simp_all [unaliased]
  simp [withAlias, unaliased, idem]

/-! ### Equality -/

mutual

/-- Whether two expressions are built alike. -/
def beq : Expr → Expr → Bool
  | .field f, .field g => f == g
  | .literal l, .literal m => l == m
  | .call k as, .call k' bs => k == k' && beqList as bs
  | .cast e t w s, .cast e' t' w' s' =>
      beq e e' && t == t' && w == w' && s == s'
  | .arithmetic op l r, .arithmetic op' l' r' =>
      op == op' && beq l l' && beq r r'
  | .concat as, .concat bs => beqList as bs
  | .aliased e n, .aliased e' n' => beq e e' && n == n'
  | _, _ => false

/-- Whether two lists of expressions are built alike. -/
def beqList : List Expr → List Expr → Bool
  | [], [] => true
  | a :: as, b :: bs => beq a b && beqList as bs
  | _, _ => false

end

mutual

/-- Expressions that are built alike are equal. -/
theorem beq_iff_eq : ∀ a b : Expr, beq a b = true ↔ a = b
  | .field _, b => by cases b <;> simp [beq]
  | .literal _, b => by cases b <;> simp [beq]
  | .call _ as, b => by
      cases b <;> simp [beq, beqList_iff_eq as]
  | .cast e _ _ _, b => by
      cases b <;> simp [beq, beq_iff_eq e, and_assoc]
  | .arithmetic _ l r, b => by
      cases b <;> simp [beq, beq_iff_eq l, beq_iff_eq r, and_assoc]
  | .concat as, b => by
      cases b <;> simp [beq, beqList_iff_eq as]
  | .aliased e _, b => by
      cases b <;> simp [beq, beq_iff_eq e]

/-- Lists of expressions that are built alike are equal. -/
theorem beqList_iff_eq :
    ∀ as bs : List Expr, beqList as bs = true ↔ as = bs
  | [], bs => by cases bs <;> simp [beqList]
  | a :: as, bs => by
      cases bs <;> simp [beqList, beq_iff_eq a, beqList_iff_eq as]

end

instance : DecidableEq Expr :=
  fun a b => decidable_of_iff _ (beq_iff_eq a b)

mutual

/-- A hash of everything an expression is built from. -/
def hashCode : Expr → UInt64
  | .field f => mixHash 1 (hash f)
  | .literal l => mixHash 2 (hash l)
  | .call k as => mixHash 3 (mixHash (hash k) (hashList as))
  | .cast e t w s => mixHash 4 (mixHash (hashCode e) (hash (t, w, s)))
  | .arithmetic op l r =>
      mixHash 5 (mixHash (hash op) (mixHash (hashCode l) (hashCode r)))
  | .concat as => mixHash 6 (hashList as)
  | .aliased e n => mixHash 7 (mixHash (hashCode e) (hash n))

/-- A hash of everything a list of expressions is built from. -/
def hashList : List Expr → UInt64
  | [] => 8
  | a :: as => mixHash (hashCode a) (hashList as)

end

instance : Hashable Expr := ⟨hashCode⟩

end Expr

end SchemaEvolution

import SchemaEvolution.Query.Expr

/-!
# `SchemaEvolution.Query.Criterion`: conditions

* `Criterion.beq_iff_eq`, `Criterion.beqList_iff_eq`: the structural
  comparison decides equality.
-/

set_option autoImplicit false

namespace SchemaEvolution

/-- A comparison of two values. -/
inductive Comparison where
  | eq
  | notEq
  | lt
  | ltEq
  | gt
  | gtEq
  | like
deriving DecidableEq, Hashable

/-- The sign of a comparison. -/
def Comparison.symbol : Comparison → String
  | .eq => "="
  | .notEq => "<>"
  | .lt => "<"
  | .ltEq => "<="
  | .gt => ">"
  | .gtEq => ">="
  | .like => "LIKE"

/-- A condition. -/
inductive Criterion where
  | compare (op : Comparison) (left right : Expr)
  | isNull (e : Expr)
  | isNotNull (e : Expr)
  | isIn (e : Expr) (values : List Expr)
  /-- All of the conditions hold. -/
  | all (criteria : List Criterion)
  /-- One of the conditions holds. -/
  | any (criteria : List Criterion)
  | not (c : Criterion)

namespace Criterion

/-- Both conditions hold. A group of that kind on the left grows. -/
def and : Criterion → Criterion → Criterion
  | .all cs, c => .all (cs ++ [c])
  | b, c => .all [b, c]

/-- One of the conditions holds. A group of that kind on the left
grows. -/
def or : Criterion → Criterion → Criterion
  | .any cs, c => .any (cs ++ [c])
  | b, c => .any [b, c]

/-- The comparison that a condition makes, if it makes one. -/
def comparison? : Criterion → Option Comparison
  | .compare op _ _ => some op
  | _ => none

/-! ### Equality -/

mutual

/-- Whether two conditions are built alike. -/
def beq : Criterion → Criterion → Bool
  | .compare op l r, .compare op' l' r' => op == op' && l == l' && r == r'
  | .isNull e, .isNull e' => e == e'
  | .isNotNull e, .isNotNull e' => e == e'
  | .isIn e vs, .isIn e' vs' => e == e' && vs == vs'
  | .all cs, .all ds => beqList cs ds
  | .any cs, .any ds => beqList cs ds
  | .not c, .not d => beq c d
  | _, _ => false

/-- Whether two lists of conditions are built alike. -/
def beqList : List Criterion → List Criterion → Bool
  | [], [] => true
  | c :: cs, d :: ds => beq c d && beqList cs ds
  | _, _ => false

end

mutual

/-- Conditions that are built alike are equal. -/
theorem beq_iff_eq : ∀ c d : Criterion, beq c d = true ↔ c = d
  | .compare _ _ _, d => by cases d <;> simp [beq, and_assoc]
  | .isNull _, d => by cases d <;> simp [beq]
  | .isNotNull _, d => by cases d <;> simp [beq]
  | .isIn _ _, d => by cases d <;> simp [beq]
  | .all cs, d => by cases d <;> simp [beq, beqList_iff_eq cs]
  | .any cs, d => by cases d <;> simp [beq, beqList_iff_eq cs]
  | .not c, d => by cases d <;> simp [beq, beq_iff_eq c]

/-- Lists of conditions that are built alike are equal. -/
theorem beqList_iff_eq :
    ∀ cs ds : List Criterion, beqList cs ds = true ↔ cs = ds
  | [], ds => by cases ds <;> simp [beqList]
  | c :: cs, ds => by
      cases ds <;> simp [beqList, beq_iff_eq c, beqList_iff_eq cs]

end

instance : DecidableEq Criterion :=
  fun c d => decidable_of_iff _ (beq_iff_eq c d)

mutual

/-- A hash of everything a condition is built from. -/
def hashCode : Criterion → UInt64
  | .compare op l r =>
      mixHash 1 (mixHash (hash op) (mixHash (hash l) (hash r)))
  | .isNull e => mixHash 2 (hash e)
  | .isNotNull e => mixHash 3 (hash e)
  | .isIn e vs => mixHash 4 (mixHash (hash e) (hash vs))
  | .all cs => mixHash 5 (hashList cs)
  | .any cs => mixHash 6 (hashList cs)
  | .not c => mixHash 7 (hashCode c)

/-- A hash of everything a list of conditions is built from. -/
def hashList : List Criterion → UInt64
  | [] => 8
  | c :: cs => mixHash (hashCode c) (hashList cs)

end

instance : Hashable Criterion := ⟨hashCode⟩

end Criterion

end SchemaEvolution

import SchemaEvolution.Json.Basic

/-!
# `SchemaEvolution.Json.Magnitude`: how large a number may be

A number has to have a finite double-precision value, and its digits
decide that in two parts: the leading ones are a whole number of 64
bits, the `significand`, and the others only count towards the power
of ten that it is multiplied by. The two are rounded to double
precision one by one, and so is their product; the number is too large
if that product rounds to infinity. As the parts are rounded first, of
two spellings of one value it can be that only one is finite.

* `roundToDouble_of_lt`: a whole number of 53 bits is a double.
* `roundToDouble_near`: rounding moves a number by at most half the
  distance of its neighbours.
* `Number.isFinite_of_significand_eq_zero`: a zero is finite, whatever
  its exponent.
-/

set_option autoImplicit false

namespace SchemaEvolution.Json

open SchemaEvolution.Text

/-! ### Double precision -/

/-- The distance of the doubles next to a whole number: a double has
53 binary digits. -/
def spacing (n : Nat) : Nat :=
  Nat.pow 2 (n.log2 - 52)

/-- The double nearest to a whole number; of two that are equally near,
the even one. -/
def roundToDouble (n : Nat) : Nat :=
  let below := n / spacing n
  let excess := 2 * (n % spacing n)
  if excess < spacing n || excess == spacing n && below % 2 == 0 then
    below * spacing n
  else
    (below + 1) * spacing n

/-- The least whole number that rounds to infinity. -/
def overflow : Nat :=
  Nat.pow 2 1024 - Nat.pow 2 970

/-- The greatest power of ten that is finite. -/
def greatestPower : Int := 308

/-! ### The parts of a number -/

namespace Number

/-- A significand with more digits behind it, as many as leave it
below `2 ^ 64`, and the digits from the first one that does not. -/
def appendDigits (significand : Nat) : List Char → Nat × List Char
  | [] => (significand, [])
  | d :: ds =>
      let longer := 10 * significand + digitsValue [d]
      if longer < Nat.pow 2 64 then appendDigits longer ds
      else (significand, d :: ds)

/-- The significand of the digits before the point, and those of them
that it leaves over. -/
def wholePart (n : Number) : Nat × List Char :=
  appendDigits 0 n.whole

/-- The significand of all digits, and the digits after the point that
it leaves over. -/
def significandPart (n : Number) : Nat × List Char :=
  appendDigits n.wholePart.1 n.fraction

/-- The leading digits of a number, as a whole number of 64 bits. -/
def significand (n : Number) : Nat :=
  n.significandPart.1

/-- The exponent that a number spells. -/
def spelledExponent (n : Number) : Int :=
  match n.exponent with
  | none => 0
  | some (true, ds) => -(digitsValue ds : Int)
  | some (false, ds) => digitsValue ds

/-- The power of ten that the significand is multiplied by: a digit
before the point that was left over raises it, and one after the point
that was not lowers it. -/
def power (n : Number) : Int :=
  n.wholePart.2.length
    - (n.fraction.length - n.significandPart.2.length : Nat)
    + n.spelledExponent

/-- Whether a number has a finite double-precision value. -/
def isFinite (n : Number) : Bool :=
  n.significand == 0 || n.power < 0 ||
    (n.power ≤ greatestPower &&
      roundToDouble n.significand
        * roundToDouble (Nat.pow 10 n.power.toNat) < overflow)

end Number

/-! ### Rounding -/

/-- Doubles lie apart. -/
theorem spacing_pos (n : Nat) : 0 < spacing n :=
  Nat.pow_pos (by decide)

/-- A whole number of 53 bits is a double. -/
theorem roundToDouble_of_lt {n : Nat} (h : n < Nat.pow 2 53) :
    roundToDouble n = n := by
  have small : n.log2 - 52 = 0 := by
    by_cases hn : n = 0
    · rw [hn]; decide
    · have := (Nat.log2_lt hn).mpr h
      omega
  simp [roundToDouble, spacing, small, Nat.mod_one]

/-- Rounding moves a number by at most half the distance of its
neighbours. -/
theorem roundToDouble_near (n : Nat) :
    2 * roundToDouble n ≤ 2 * n + spacing n
      ∧ 2 * n ≤ 2 * roundToDouble n + spacing n := by
  have hpos := spacing_pos n
  have hmod := Nat.mod_lt n hpos
  have hdiv := Nat.div_add_mod n (spacing n)
  rw [Nat.mul_comm] at hdiv
  unfold roundToDouble
  simp only [Bool.or_eq_true, Bool.and_eq_true, decide_eq_true_eq,
    beq_iff_eq, Nat.add_mul, Nat.one_mul]
  generalize n / spacing n * spacing n = below at *
  split <;> omega

/-- A zero is finite, whatever its exponent. -/
theorem Number.isFinite_of_significand_eq_zero {n : Number}
    (h : n.significand = 0) : n.isFinite = true := by
  simp [isFinite, h]

end SchemaEvolution.Json

/-!
# RecurringWork.Double

**Numbers of double precision**, as exact values. Every finite one is a whole
multiple of the smallest positive one, `2 ^ -1074`, so a number is a sign and a count
of these units, and no operation here rounds but the one that is named for it.

* `Double.ofRatio?` — the double nearest to a fraction, of two equally near ones the
  one with the even significand; and
* `mul?`, `div?` — the nearest double to a product and to a quotient.

Zero has a sign. There are no infinities: what would round to one has no value.
-/

namespace RecurringWork

/-- The number `±units · 2 ^ -1074`. -/
structure Double where
  negative : Bool
  units : Nat
  deriving DecidableEq, Repr

namespace Double

/-- Binary digits of a significand. -/
def precision : Nat := 53

/-- How many units make one. -/
def one : Nat := 1 <<< 1074

/-- The count of units from which on a magnitude is out of range. -/
def bound : Nat := one <<< 1024

/-- The quotient nearest to `a / b`, of two equally near ones the even one. -/
def nearest (a b : Nat) : Nat :=
  let q := a / b
  let r := 2 * (a % b)
  if r < b ∨ (r = b ∧ q % 2 = 0) then q else q + 1

/-- The distance between neighbouring doubles at a magnitude of `units`: one unit up
to `2 ^ 53` units, then as many as keep the significand at its precision. -/
def spacing (units : Nat) : Nat := 1 <<< (units.log2 + 1 - precision)

/-- The double nearest to `a / b`, if that is in range. -/
def ofRatio? (negative : Bool) (a b : Nat) : Option Double :=
  let step := spacing (a * one / b)
  let units := nearest (a * one) (b * step) * step
  if units < bound then some ⟨negative, units⟩ else none

/-- The double nearest to a number of 64 bits. -/
def ofNat? (n : Nat) : Option Double := ofRatio? false n 1

/-- The double nearest to `10 ^ k`. -/
def powerOfTen? (k : Nat) : Option Double := ofNat? (Nat.pow 10 k)

/-- The double nearest to a product. -/
def mul? (x y : Double) : Option Double :=
  ofRatio? (x.negative != y.negative) (x.units * y.units) (one * one)

/-- The double nearest to a quotient; nothing is divided by zero. -/
def div? (x y : Double) : Option Double :=
  if y.units = 0 then none else ofRatio? (x.negative != y.negative) x.units y.units

/-- The number with the sign given. -/
def withSign (x : Double) (negative : Bool) : Double := { x with negative }

def isZero (x : Double) : Bool := x.units == 0

/-- What is rounded is off by half a step at most. -/
theorem nearest_close {a b : Nat} (h : 0 < b) :
    2 * a ≤ (2 * nearest a b + 1) * b ∧ 2 * nearest a b * b ≤ 2 * a + b := by
  have e : b * (a / b) + a % b = a := Nat.div_add_mod a b
  have l : a % b < b := Nat.mod_lt a h
  simp only [nearest]
  split <;> constructor <;> grind

/-- A whole multiple is kept as it is. -/
@[simp] theorem nearest_mul_self {b : Nat} (n : Nat) (h : 0 < b) : nearest (n * b) b = n := by
  simp [nearest, Nat.mul_div_cancel n h, h]

end Double

end RecurringWork

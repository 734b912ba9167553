import RecurringWork.Double

/-!
# RecurringWork.Double.Shortest

**The fewest decimal digits that read back.** Of the decimals with one digit, two
digits and so on, the first count is taken at which a neighbour of the number on that
grid rounds to the number; if both neighbours do, the nearer one. Seventeen digits
always suffice.
-/

namespace RecurringWork

/-- The number `±digits · 10 ^ exponent`. -/
structure Decimal where
  negative : Bool
  digits : Nat
  exponent : Int
  deriving DecidableEq, Repr

namespace Decimal

/-- Strip trailing zeros from `digits`, at most `fuel` of them. -/
private def strip : Nat → Nat → Int → Nat × Int
  | 0, d, e => (d, e)
  | fuel + 1, d, e => if d % 10 = 0 then strip fuel (d / 10) (e + 1) else (d, e)

/-- The same number without trailing zeros in its digits. -/
def normalize (x : Decimal) : Decimal :=
  if x.digits = 0 then { x with exponent := 0 }
  else
    let (d, e) := strip (Nat.toDigits 10 x.digits).length x.digits x.exponent
    { x with digits := d, exponent := e }

/-- The double nearest to the number, if it is in range. -/
def toDouble? (x : Decimal) : Option Double :=
  Double.ofRatio? x.negative (x.digits * Nat.pow 10 x.exponent.toNat)
    (Nat.pow 10 (-x.exponent).toNat)

end Decimal

namespace Double

/-- Most digits that a double needs. -/
def mostDigits : Nat := 17

/-- Decimal places that bring every double but zero above one. -/
private def raise : Nat := 400

/-- The number lies below `10 ^ lead` and not below a tenth of it. -/
def lead (x : Double) : Int :=
  (Nat.toDigits 10 (x.units * Nat.pow 10 raise / one)).length - (raise : Int)

/-- The decimals with `count` digits next to the number, the nearer one first. -/
def neighbours (x : Double) (count : Nat) : List Decimal :=
  let e := x.lead - count
  let a := x.units * Nat.pow 10 (-e).toNat
  let b := one * Nat.pow 10 e.toNat
  let below : Decimal := ⟨x.negative, a / b, e⟩
  let above : Decimal := ⟨x.negative, a / b + 1, e⟩
  if nearest a b = a / b then [below, above] else [above, below]

/-- The shortest decimal that reads back. -/
def shortest (x : Double) : Decimal :=
  if x.isZero then ⟨x.negative, 0, 0⟩
  else
    let found := (List.range mostDigits).findSome? fun n =>
      (x.neighbours (n + 1)).find? fun d => d.toDouble? == some x
    (found.getD ⟨x.negative, x.units, 0⟩).normalize

/-- What is found reads back, before zeros are stripped. -/
theorem toDouble?_of_mem_neighbours {x : Double} {n : Nat} {d : Decimal}
    (h : (x.neighbours n).find? (fun d => d.toDouble? == some x) = some d) :
    d.toDouble? = some x := by
  simpa using List.find?_some h

end Double

end RecurringWork

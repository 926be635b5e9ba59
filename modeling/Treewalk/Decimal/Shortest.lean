/-
The shortest decimal that reads back as a given binary number.

A binary number `mantissa · 2 ^ exponent` is what every real in its rounding interval is rounded
to. The interval reaches half way to each neighbour, and its ends belong to it when the mantissa
is even. The numbers `coefficient · 10 ^ place` form a grid; the coarsest grid with a point in
the interval gives the fewest digits, and only the two points next to the number need looking
at. Of two such points the nearer one is taken, and the upper one at equal distance.

Everything is compared in exact integer arithmetic, in quarters of the last binary place.
-/

namespace Treewalk

/-- The positive number `mantissa · 2 ^ exponent`. When `powerOfTwo` holds, the number below is
only half as far away as the number above. -/
structure Dyadic where
  mantissa : Nat
  exponent : Int
  powerOfTwo : Bool

/-- The number `coefficient · 10 ^ place`. -/
structure Decimal where
  coefficient : Nat
  place : Int
deriving DecidableEq

namespace Dyadic

/-- The lower end of the rounding interval, in quarters of the last binary place. -/
def low (number : Dyadic) : Nat := 4 * number.mantissa - if number.powerOfTwo then 1 else 2

/-- The upper end of the rounding interval, in quarters of the last binary place. -/
def high (number : Dyadic) : Nat := 4 * number.mantissa + 2

/-- A quarter of the last binary place over `10 ^ place`, as a fraction. -/
def quarter (number : Dyadic) (place : Int) : Nat × Nat :=
  let exponent := number.exponent - 2
  (Nat.pow 10 (-place).toNat <<< exponent.toNat, Nat.pow 10 place.toNat <<< (-exponent).toNat)

/-- Whether `coefficient · 10 ^ place` is rounded to the number. -/
def hit (number : Dyadic) (place : Int) (coefficient : Nat) : Bool :=
  let (numerator, denominator) := number.quarter place
  let point := coefficient * denominator
  if number.mantissa % 2 = 0 then
    number.low * numerator ≤ point && point ≤ number.high * numerator
  else
    number.low * numerator < point && point < number.high * numerator

/-- The point of the grid at `place` that is rounded to the number and lies next to it. -/
def nearest? (number : Dyadic) (place : Int) : Option Nat :=
  let (numerator, denominator) := number.quarter place
  let value := 4 * number.mantissa * numerator
  let below := value / denominator
  match number.hit place below, number.hit place (below + 1) with
  | true, true => some (if 2 * value < (2 * below + 1) * denominator then below else below + 1)
  | true, false => some below
  | false, true => some (below + 1)
  | false, false => none

/-- A place whose grid is too coarse to have a point in the rounding interval or close to it. -/
def coarsest (number : Dyadic) : Int :=
  let (numerator, denominator) := number.quarter 0
  let top := number.high * numerator
  if denominator ≤ top then
    ((Nat.toDigits 10 (top / denominator)).length : Int)
  else
    2 - ((Nat.toDigits 10 (denominator / top)).length : Int)

/-- Tries `tries` grids, from `place` on to finer ones, for a point in the rounding interval. -/
def descend (number : Dyadic) : Nat → Int → Option Decimal
  | 0, _ => none
  | tries + 1, place =>
    match number.nearest? place with
    | some coefficient => some ⟨coefficient, place⟩
    | none => number.descend tries (place - 1)

/-- The shortest decimal that reads back as the number. Seventeen digits always suffice, so that
twenty grids below the coarsest are enough. -/
def shortest (number : Dyadic) : Decimal :=
  (number.descend 20 number.coarsest).getD ⟨0, 0⟩

/-- One tenth has a long binary expansion and a short decimal. -/
example : shortest ⟨0x1999999999999a, -56, false⟩ = ⟨1, -1⟩ := by decide

/-- The least positive number of all. -/
example : shortest ⟨1, -1074, false⟩ = ⟨5, -324⟩ := by decide +kernel

/-- Two points are equally near; the upper one is taken. -/
example : shortest ⟨0x10000000000000, -77, true⟩ = ⟨29802322387695313, -24⟩ := by decide

end Dyadic

/-- What the sixty-four bits of a float stand for. -/
inductive FloatParts
  | notANumber
  | infinite (negative : Bool)
  | zero (negative : Bool)
  | finite (negative : Bool) (magnitude : Dyadic)

/-- The least mantissa of a number that has all the digits a float can have. -/
def leastNormal : Nat := 0x10000000000000

/-- Takes a float apart into its sign, its exponent and its mantissa. -/
def FloatParts.ofFloat (real : Float) : FloatParts :=
  let bits := real.toBits.toNat
  let negative := bits >>> 63 == 1
  let exponent : Nat := (bits >>> 52) % 2048
  let fraction := bits % leastNormal
  if exponent = 2047 then
    if fraction = 0 then .infinite negative else .notANumber
  else if exponent = 0 then
    if fraction = 0 then .zero negative else .finite negative ⟨fraction, -1074, false⟩
  else
    .finite negative
      ⟨leastNormal + fraction, (exponent : Int) - 1075, fraction == 0 && exponent != 1⟩

end Treewalk

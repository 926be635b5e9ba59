/-
Arithmetic and comparison of numbers.

Two integers are added, subtracted, multiplied and raised to a power exactly: the result is the
integer of unbounded arithmetic, or a fault that names the operation when that integer does not
fit. A division is always one of floats. When either operand is a float, both are taken as floats.

The fault of a division and the truth of a conjunction are decided on the operands themselves,
before any of them is taken as a float.
-/
import Treewalk.Fault
import Treewalk.Number

namespace Treewalk

/-- The integer result of an operation, or the fault that it does not fit. -/
def exactly (operation : String) (exact : Int) : Except Fault Number :=
  match narrow? exact with
  | some word => .ok (.int word)
  | none => .error (.integerOverflow operation)

/-- A power with a natural exponent. The powers of zero, one and minus one are known for every
exponent; any other base overflows at an exponent of 64, so that no larger power is computed. -/
def power (base : Int) (exponent : Nat) : Except Fault Number :=
  if base.natAbs ≤ 1 then
    exactly "exponentiation"
      (if exponent = 0 then 1 else if exponent % 2 = 0 then base * base else base)
  else if exponent < 64 then
    exactly "exponentiation" (base.pow exponent)
  else
    .error (.integerOverflow "exponentiation")

namespace Number

/-- An operation that is exact on two integers and one of floats otherwise. -/
def combine (operation : String) (exact : Int → Int → Int) (real : Float → Float → Float) :
    Number → Number → Except Fault Number
  | int left, int right => exactly operation (exact left.toInt right.toInt)
  | left, right => .ok (float (real left.toFloat right.toFloat))

/-- A comparison that is one of integers on two integers and one of floats otherwise. -/
def compare (exact : Int → Int → Bool) (real : Float → Float → Bool) :
    Number → Number → Except Fault Number
  | int left, int right => .ok (ofBool (exact left.toInt right.toInt))
  | left, right => .ok (ofBool (real left.toFloat right.toFloat))

/-- A power: an integer one when the exponent is a natural number and the base an integer. -/
def raise : Number → Number → Except Fault Number
  | int base, int exponent =>
    if 0 ≤ exponent.toInt then power base.toInt exponent.toInt.toNat
    else .ok (float (Float.pow (int base).toFloat (int exponent).toFloat))
  | base, exponent => .ok (float (Float.pow base.toFloat exponent.toFloat))

/-- What an operator makes of two numbers. -/
def apply (op : BinaryOperator) (left right : Number) : Except Fault Number :=
  match op with
  | .add => combine "addition" (· + ·) (· + ·) left right
  | .subtract => combine "subtraction" (· - ·) (· - ·) left right
  | .multiply => combine "multiplication" (· * ·) (· * ·) left right
  | .divide =>
    if right.isZero then .error .divisionByZero else .ok (float (left.toFloat / right.toFloat))
  | .power => raise left right
  | .equal => compare (· == ·) (· == ·) left right
  | .notEqual => compare (· != ·) (· != ·) left right
  | .less => compare (· < ·) (· < ·) left right
  | .greater => compare (· > ·) (· > ·) left right
  | .atMost => compare (· ≤ ·) (· ≤ ·) left right
  | .atLeast => compare (· ≥ ·) (· ≥ ·) left right
  | .and => .ok (ofBool (!left.isZero && !right.isZero))
  | .or => .ok (ofBool (!left.isZero || !right.isZero))
  | .append =>
    match left, right with
    | int _, int _ => .error (.invalidBinary "int" .append)
    | _, _ => .error (.invalidBinary "float" .append)

/-- The number with its sign changed. The least integer has no counterpart. -/
def negate : Number → Except Fault Number
  | int word => exactly "negation" (-word.toInt)
  | float real => .ok (float (-real))

example : apply .power (int (-2)) (int 63) = .ok (int Int64.minValue) := rfl

example : apply .add (int Int64.maxValue) (int 1) = .error (.integerOverflow "addition") := rfl

end Number

end Treewalk

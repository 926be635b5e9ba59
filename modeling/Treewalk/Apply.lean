/-
What the operators do to values.

The type of the left operand decides first: an array on the left admits only the append operator,
which makes a new array and leaves the old one as it was. Two numbers are a matter of arithmetic,
two strings can be joined and compared for equality, and no other pair of types combines.
-/
import Treewalk.Arithmetic
import Treewalk.Value

namespace Treewalk

/-- What an operator makes of two strings. -/
def applyStrings (op : BinaryOperator) (left right : String) : Except Fault Value :=
  match op with
  | .add => .ok (.string (left ++ right))
  | .equal => .ok (.number (.ofBool (left == right)))
  | .notEqual => .ok (.number (.ofBool (left != right)))
  | _ => .error (.invalidBinary "string" op)

/-- What an operator makes of two values. A new array is given the number `object`. -/
def BinaryOperator.apply (op : BinaryOperator) (object : Nat) (left right : Value) :
    Except Fault Value :=
  match left, right with
  | .array _ latest, item =>
    match op with
    | .append => .ok (.array object (item :: latest))
    | _ => .error (.invalidBinary "array" op)
  | .number left, .number right => (Number.apply op left right).map .number
  | .string left, .string right => applyStrings op left right
  | left, right => .error (.typeMismatch left.typeName right.typeName op)

/-- What an operator makes of one value. -/
def UnaryOperator.apply (op : UnaryOperator) (operand : Value) : Except Fault Value :=
  match op, operand with
  | .negate, .number operand => operand.negate.map .number
  | .not, .number operand => .ok (.number (.ofBool operand.isZero))
  | _, operand => .error (.invalidUnary operand.typeName op)

end Treewalk

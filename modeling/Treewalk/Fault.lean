/-
The causes of failure. A fault says what went wrong and nothing about where; its message is what a
user is shown. Faults of a program are told apart from faults that only say that a limit was
reached (`isLimit`).
-/
import Treewalk.Operator
import Treewalk.Text.Form
import Treewalk.Text.Quoted

namespace Treewalk

open Text (Form quoted)

/-- Why an evaluation failed. -/
inductive Fault
  | divisionByZero
  /-- An integer result that does not fit; the operation is named. -/
  | integerOverflow (operation : String)
  /-- An operator that does not apply to operands of this type. -/
  | invalidBinary (typeName : String) (op : BinaryOperator)
  /-- Operands of two types that no operator combines. -/
  | typeMismatch (left right : String) (op : BinaryOperator)
  | invalidUnary (typeName : String) (op : UnaryOperator)
  /-- The start, end or step of a range is not a number. -/
  | boundNotNumber (bound typeName : String)
  | undefinedVariable (name : String)
  | arityMismatch (name : String) (expected got : Nat)
  | notCallable (typeName : String)
  /-- A call beyond the greatest depth of calls. -/
  | stackOverflow (limit : Nat)
  /-- A step beyond the budget of steps. -/
  | budgetExceeded (budget : Nat)
  /-- The host asked the evaluation to stop. -/
  | interrupted
deriving DecidableEq

namespace Fault

/-- What a user is told. -/
def message : Fault → String
  | divisionByZero => "division by zero"
  | integerOverflow operation => "integer overflow in " ++ operation
  | invalidBinary typeName op => "operator `" ++ op.symbol ++ "` cannot be applied to " ++ typeName
  | typeMismatch left right op =>
    "unsupported operand types for `" ++ op.symbol ++ "`: " ++ left ++ " and " ++ right
  | invalidUnary typeName op => "operator `" ++ op.symbol ++ "` cannot be applied to " ++ typeName
  | boundNotNumber bound typeName =>
    "for loop " ++ bound ++ " must be a number, got " ++ typeName
  | undefinedVariable name => "var '" ++ name ++ "' is not defined"
  | arityMismatch name expected got =>
    "wrong number of arguments passed into '" ++ name ++ "': expected " ++ toString expected ++
      ", got " ++ toString got
  | notCallable typeName => typeName ++ " is not callable"
  | stackOverflow limit =>
    "maximum recursion depth exceeded (limit: " ++ toString limit ++ ")"
  | budgetExceeded budget => "evaluation budget of " ++ toString budget ++ " steps exceeded"
  | interrupted => "evaluation interrupted"

/-- Whether the fault only says that a limit was reached. -/
def isLimit : Fault → Bool
  | stackOverflow _ | budgetExceeded _ | interrupted => true
  | _ => false

/-- A fault as a form. -/
def form : Fault → Form
  | divisionByZero => .atom "DivisionByZero"
  | integerOverflow operation =>
    .record "IntegerOverflow" [("operation", .atom (quoted operation))]
  | invalidBinary typeName op =>
    .record "InvalidBinaryOp" [("type_name", .atom (quoted typeName)), ("op", .atom op.label)]
  | typeMismatch left right op =>
    .record "BinaryTypeMismatch"
      [("left", .atom (quoted left)), ("right", .atom (quoted right)), ("op", .atom op.label)]
  | invalidUnary typeName op =>
    .record "InvalidUnaryOp" [("type_name", .atom (quoted typeName)), ("op", .atom op.label)]
  | boundNotNumber bound typeName =>
    .record "LoopBoundNotNumber"
      [("bound", .atom (quoted bound)), ("type_name", .atom (quoted typeName))]
  | undefinedVariable name => .record "UndefinedVariable" [("name", .atom (quoted name))]
  | arityMismatch name expected got =>
    .record "ArityMismatch"
      [("name", .atom (quoted name)), ("expected", .atom (toString expected)),
        ("got", .atom (toString got))]
  | notCallable typeName => .record "NotCallable" [("type_name", .atom (quoted typeName))]
  | stackOverflow limit => .record "StackOverflow" [("depth", .atom (toString limit))]
  | budgetExceeded budget => .record "BudgetExceeded" [("budget", .atom (toString budget))]
  | interrupted => .atom "Interrupted"

/-- The listing of a fault. -/
def listing (fault : Fault) : String := fault.form.display

end Fault

end Treewalk

/-
Programs as trees. The language has expressions only: loops, conditionals and function
definitions all have a value, so a program is one expression.

Every node carries the span it was read from. Every function definition also carries the number
of the site it was written at: two functions have one body in common exactly when their sites are
the same, which is how functions are told apart later without comparing bodies.
-/
import Treewalk.Number
import Treewalk.Operator
import Treewalk.Span

namespace Treewalk

/-- A node of a program tree, with everything below it. -/
inductive Expr
  /-- A number as it is written: `42`, `2.5`. -/
  | number (span : Span) (value : Number)
  /-- A string as it is written. -/
  | string (span : Span) (value : String)
  /-- An array of the values of its items. -/
  | array (span : Span) (items : List Expr)
  /-- The value that a name is bound to. -/
  | lookup (span : Span) (name : String)
  /-- Binds a name to a value. -/
  | assign (span : Span) (name : String) (value : Expr)
  /-- An operator between two operands. -/
  | binary (span : Span) (op : BinaryOperator) (left right : Expr)
  /-- An operator on one operand. -/
  | unary (span : Span) (op : UnaryOperator) (operand : Expr)
  /-- The body of the first case whose condition holds, or else the branch for no case. -/
  | conditional (span : Span) (cases : List (Expr × Expr)) (otherwise : Option Expr)
  /-- Runs a body for every number of a range. -/
  | forLoop (span : Span) (name : String) (start stop : Expr) (step : Option Expr) (body : Expr)
  /-- Runs a body as long as a condition holds. -/
  | whileLoop (span : Span) (condition body : Expr)
  /-- Defines a function, with or without a name. -/
  | define (span : Span) (name : Option String) (params : List String) (site : Nat) (body : Expr)
  /-- Calls a function. -/
  | call (span : Span) (callee : Expr) (args : List Expr)
deriving Inhabited

namespace Expr

/-- The span the node was read from. -/
def span : Expr → Span
  | number span .. | string span .. | array span .. | lookup span .. | assign span ..
  | binary span .. | unary span .. | conditional span .. | forLoop span .. | whileLoop span ..
  | define span .. | call span .. => span

/-- The name of the node's kind. -/
def kind : Expr → String
  | number .. => "Number"
  | string .. => "String"
  | array .. => "Array"
  | lookup .. => "VarAccess"
  | assign .. => "VarAssign"
  | binary .. => "Binary"
  | unary .. => "Unary"
  | conditional .. => "If"
  | forLoop .. => "For"
  | whileLoop .. => "While"
  | define .. => "FuncDef"
  | call .. => "Call"

end Expr

end Treewalk

/-
The operators of the language: their symbols in program text and their names in listings. What
they do to values is said in `Treewalk.Apply`.
-/

namespace Treewalk

/-- The operators between two operands. Both operands are always evaluated. -/
inductive BinaryOperator
  | add | subtract | multiply | divide | power
  | equal | notEqual | less | greater | atMost | atLeast
  | and | or
  | append
deriving DecidableEq, Inhabited

namespace BinaryOperator

/-- Every binary operator, arithmetic first, then comparison, logic and append. -/
def all : List BinaryOperator :=
  [add, subtract, multiply, divide, power, equal, notEqual, less, greater, atMost, atLeast,
    and, or, append]

/-- The operator as it is written in a program. -/
def symbol : BinaryOperator → String
  | add => "+"
  | subtract => "-"
  | multiply => "*"
  | divide => "/"
  | power => "^"
  | equal => "=="
  | notEqual => "!="
  | less => "<"
  | greater => ">"
  | atMost => "<="
  | atLeast => ">="
  | and => "and"
  | or => "or"
  | append => "@"

/-- The operator as it is written in a listing of a tree. -/
def label : BinaryOperator → String
  | add => "Add"
  | subtract => "Sub"
  | multiply => "Mul"
  | divide => "Div"
  | power => "Pow"
  | equal => "Eq"
  | notEqual => "NotEq"
  | less => "Lt"
  | greater => "Gt"
  | atMost => "LtEq"
  | atLeast => "GtEq"
  | and => "And"
  | or => "Or"
  | append => "Append"

theorem mem_all (op : BinaryOperator) : op ∈ all := by
  cases op <;> decide

/-- The operator with a given symbol. -/
def ofSymbol? (symbol : String) : Option BinaryOperator :=
  all.find? fun op => op.symbol == symbol

theorem ofSymbol?_symbol (op : BinaryOperator) : ofSymbol? op.symbol = some op := by
  cases op <;> decide

end BinaryOperator

/-- The operators on one operand. -/
inductive UnaryOperator
  | negate | not
deriving DecidableEq, Inhabited

namespace UnaryOperator

/-- Both unary operators. -/
def all : List UnaryOperator := [negate, not]

/-- The operator as it is written in a program. -/
def symbol : UnaryOperator → String
  | negate => "-"
  | not => "not"

/-- The operator as it is written in a listing of a tree. -/
def label : UnaryOperator → String
  | negate => "Neg"
  | not => "Not"

/-- The operator with a given symbol. -/
def ofSymbol? (symbol : String) : Option UnaryOperator :=
  all.find? fun op => op.symbol == symbol

theorem ofSymbol?_symbol (op : UnaryOperator) : ofSymbol? op.symbol = some op := by
  cases op <;> decide

end UnaryOperator

end Treewalk

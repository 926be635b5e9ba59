/-
Trees as listings: every node as its kind with its parts, followed by the span it was read from.
-/
import Treewalk.Decimal.Layout
import Treewalk.Expr
import Treewalk.Text.Form
import Treewalk.Text.Quoted

namespace Treewalk

open Text (Form quoted)

/-- A number with the name of its kind. -/
def Number.form : Number → Form
  | int word => .tuple "Int" [.atom (toString word.toInt)]
  | float real => .tuple "Float" [.atom (FloatLayout.listed.write real)]

namespace Expr

/-- A list of names. -/
def namesForm (names : List String) : Form := .list (names.map fun name => .atom (quoted name))

/-- A name that may be absent. -/
def nameForm (name : Option String) : Form := .ofOption (name.map fun name => .atom (quoted name))

mutual

/-- A tree as a form. -/
def form : Expr → Form
  | number span value => .located (.tuple "Number" [value.form]) span
  | string span value => .located (.tuple "String" [.atom (quoted value)]) span
  | array span items => .located (.tuple "Array" [.list (forms items)]) span
  | lookup span name => .located (.tuple "VarAccess" [.atom (quoted name)]) span
  | assign span name value =>
    .located (.record "VarAssign" [("name", .atom (quoted name)), ("value", form value)]) span
  | binary span op left right =>
    .located (.record "Binary"
      [("op", .atom op.label), ("left", form left), ("right", form right)]) span
  | unary span op operand =>
    .located (.record "Unary" [("op", .atom op.label), ("operand", form operand)]) span
  | conditional span cases otherwise =>
    .located (.record "If"
      [("cases", .list (caseForms cases)), ("else_branch", optionalForm otherwise)]) span
  | forLoop span name start stop step body =>
    .located (.record "For"
      [("var", .atom (quoted name)), ("start", form start), ("end", form stop),
        ("step", optionalForm step), ("body", form body)]) span
  | whileLoop span condition body =>
    .located (.record "While" [("condition", form condition), ("body", form body)]) span
  | define span name params _ body =>
    .located (.record "FuncDef"
      [("name", nameForm name), ("params", namesForm params), ("body", form body)]) span
  | call span callee args =>
    .located (.record "Call" [("callee", form callee), ("args", .list (forms args))]) span

/-- Trees as forms, one by one. -/
def forms : List Expr → List Form
  | [] => []
  | item :: rest => form item :: forms rest

/-- Each case as a record of its own. -/
def caseForms : List (Expr × Expr) → List Form
  | [] => []
  | (condition, body) :: rest =>
    .record "IfCase" [("condition", form condition), ("body", form body)] :: caseForms rest

/-- A tree that may be absent. -/
def optionalForm : Option Expr → Form
  | none => .ofOption none
  | some tree => .ofOption (some (form tree))

end

/-- The listing of a tree. -/
def listing (tree : Expr) : String := tree.form.display

end Expr

end Treewalk

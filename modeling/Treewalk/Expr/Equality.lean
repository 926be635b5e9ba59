/-
When two trees are the same: node by node, spans included. Numbers are compared as numbers, so a
tree with a NaN in it differs from itself, and function bodies are compared by what they contain,
not by the site they were written at.
-/
import Treewalk.Expr

namespace Treewalk.Expr

mutual

/-- Whether two trees are the same. -/
def same : Expr → Expr → Bool
  | number span value, number span' value' => span == span' && value.same value'
  | string span value, string span' value' => span == span' && value == value'
  | array span items, array span' items' => span == span' && sameItems items items'
  | lookup span name, lookup span' name' => span == span' && name == name'
  | assign span name value, assign span' name' value' =>
    span == span' && name == name' && same value value'
  | binary span op left right, binary span' op' left' right' =>
    span == span' && op == op' && same left left' && same right right'
  | unary span op operand, unary span' op' operand' =>
    span == span' && op == op' && same operand operand'
  | conditional span cases otherwise, conditional span' cases' otherwise' =>
    span == span' && sameCases cases cases' && sameOptional otherwise otherwise'
  | forLoop span name start stop step body, forLoop span' name' start' stop' step' body' =>
    span == span' && name == name' && same start start' && same stop stop' &&
      sameOptional step step' && same body body'
  | whileLoop span condition body, whileLoop span' condition' body' =>
    span == span' && same condition condition' && same body body'
  | define span name params _ body, define span' name' params' _ body' =>
    span == span' && name == name' && params == params' && same body body'
  | call span callee args, call span' callee' args' =>
    span == span' && same callee callee' && sameItems args args'
  | _, _ => false

/-- Whether two lists of trees are the same, item by item. -/
def sameItems : List Expr → List Expr → Bool
  | [], [] => true
  | item :: rest, item' :: rest' => same item item' && sameItems rest rest'
  | _, _ => false

/-- Whether two lists of cases are the same, conditions and bodies. -/
def sameCases : List (Expr × Expr) → List (Expr × Expr) → Bool
  | [], [] => true
  | (condition, body) :: rest, (condition', body') :: rest' =>
    same condition condition' && same body body' && sameCases rest rest'
  | _, _ => false

/-- Whether two trees that may be absent are both absent or the same. -/
def sameOptional : Option Expr → Option Expr → Bool
  | none, none => true
  | some tree, some tree' => same tree tree'
  | _, _ => false

end

end Treewalk.Expr

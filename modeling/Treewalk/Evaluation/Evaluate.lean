/-
Evaluation: `evaluate` runs a program in a context, `execute` calls a function that a host holds.

Both take fuel, because a program need not come to an end. Fuel bounds how deeply evaluations are
nested and how often each loop goes round; a run that comes to its end on some fuel comes to the
same end on more.
-/
import Treewalk.Evaluation.Node

namespace Treewalk

namespace Expr

/-- The value of a node. Every node below it is visited with one unit of fuel less. -/
def eval (interpreter : Interpreter) : Nat → Expr → Run Value
  | 0, _ => Run.unfinished
  | fuel + 1, node => visit interpreter fuel (eval interpreter fuel) node

theorem eval_zero (interpreter : Interpreter) (node : Expr) :
    eval interpreter 0 node = Run.unfinished := rfl

theorem eval_succ (interpreter : Interpreter) (fuel : Nat) (node : Expr) :
    eval interpreter (fuel + 1) node = visit interpreter fuel (eval interpreter fuel) node := rfl

end Expr

namespace Interpreter

/-- Evaluates a program. The steps are counted from zero, so that a host can evaluate line after
line in one context with the whole budget for each. -/
def evaluate (interpreter : Interpreter) (fuel : Nat) (program : Expr) : Run Value := do
  Run.resetSteps
  program.eval interpreter fuel

/-- Calls a function on behalf of a host, as an evaluation of its own. A failure before the body
starts is not the failure of any node, and knows no place. -/
def execute (interpreter : Interpreter) (fuel : Nat) (function : Function) (args : List Value)
    (span : Span) : Run Value := do
  Run.resetSteps
  interpreter.callFunction (Expr.eval interpreter fuel) function args span

end Interpreter

end Treewalk

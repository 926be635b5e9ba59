/-
What the evaluation of one node does, given how the nodes below it are evaluated.

Everything is strict and goes from left to right, also both sides of `and` and `or`. A conditional
looks at its conditions in order and stops at the first that holds. A loop gives an array of the
values of its body; the bounds of a counting loop are evaluated once, before the first round. A
named definition binds its name. A call evaluates the callee and then the arguments, and looks only
then at whether the callee is a function.

Before every call and before every round of a loop stands a checkpoint, where the interrupt and the
budget are looked at.
-/
import Treewalk.Apply
import Treewalk.Evaluation.Run
import Treewalk.Limits
import Treewalk.Range

namespace Treewalk

namespace Interpreter

/-- Stops on request, else counts a step, and stops when there are more steps than the budget
has. -/
def checkpoint (interpreter : Interpreter) : Run Unit := do
  if interpreter.interrupted then
    Run.record (.gaveIn (← Run.steps))
    Run.raise .interrupted
  else
    let count ← Run.step
    match interpreter.limits.budget with
    | none => pure ()
    | some budget =>
      if budget < count then
        Run.record (.budgetSpent budget)
        Run.raise (.budgetExceeded budget)
      else
        pure ()

/-- Calls a function with arguments that have been evaluated. The body runs in a frame that binds
the parameters and nothing else; of parameters that share a name the last one counts. The depth of
calls is looked at before the number of arguments. -/
def callFunction (interpreter : Interpreter) (evaluate : Expr → Run Value) (function : Function)
    (args : List Value) (span : Span) : Run Value :=
  Run.between (.callEntered function.displayName args.length)
      (.callLeft function.displayName args.length) do
    interpreter.checkpoint
    if interpreter.limits.maxDepth ≤ (← Run.context).depth then
      Run.raise (.stackOverflow interpreter.limits.maxDepth)
    else if args.length ≠ function.arity then
      Run.raise (.arityMismatch function.displayName function.arity args.length)
    else
      Run.inFrame function.displayName span do
        Run.assignAll function.params args
        evaluate function.body

end Interpreter

namespace Expr

/-- The values of nodes, one after the other. -/
def evaluateAll (evaluate : Expr → Run Value) : List Expr → Run (List Value)
  | [] => pure []
  | item :: rest => do
    let value ← evaluate item
    let values ← evaluateAll evaluate rest
    pure (value :: values)

/-- The value of a node that may be absent. -/
def evaluateOptional (evaluate : Expr → Run Value) : Option Expr → Run (Option Value)
  | none => pure none
  | some node => do
    let value ← evaluate node
    pure (some value)

/-- The value of the first body whose condition holds, or else of the branch for no case. -/
def evaluateCases (evaluate : Expr → Run Value) (otherwise : Option Expr) :
    List (Expr × Expr) → Run Value
  | [] =>
    match otherwise with
    | none => pure .void
    | some node => evaluate node
  | (condition, body) :: rest => do
    if (← evaluate condition).isTruthy then
      evaluate body
    else
      evaluateCases evaluate otherwise rest

/-- One round of a counting loop: binds the name to the next number and evaluates the body. What
the loop carries along is the rest of the range and the values so far, the latest first. -/
def forTurn (interpreter : Interpreter) (evaluate : Expr → Run Value) (name : String)
    (body : Expr) : Range × List Value → Run (Turn (Range × List Value) (List Value))
  | (range, values) =>
    match range.next with
    | (none, _) => pure (.done values.reverse)
    | (some current, rest) => do
      interpreter.checkpoint
      Run.assign name (.number current)
      let value ← evaluate body
      pure (.again (rest, value :: values))

/-- One round of a conditional loop. What the loop carries along are the values so far, the latest
first. -/
def whileTurn (interpreter : Interpreter) (evaluate : Expr → Run Value) (condition body : Expr)
    (values : List Value) : Run (Turn (List Value) (List Value)) := do
  interpreter.checkpoint
  if (← evaluate condition).isTruthy then
    let value ← evaluate body
    pure (.again (value :: values))
  else
    pure (.done values.reverse)

/-- The value of a node, given how the nodes below it are evaluated and how often a loop may go
round. -/
def evaluateNode (interpreter : Interpreter) (rounds : Nat) (evaluate : Expr → Run Value) :
    Expr → Run Value
  | number _ value => pure (.number value)
  | string _ value => pure (.string value)
  | array _ items => do
    let values ← evaluateAll evaluate items
    Run.newArray values
  | lookup _ name => do
    match (← Run.context).get? name with
    | some value => pure value
    | none => Run.raise (.undefinedVariable name)
  | assign _ name value => do
    let value ← evaluate value
    Run.assign name value
    pure value
  | binary _ op left right => do
    let left ← evaluate left
    let right ← evaluate right
    let object ← Run.newObject
    Run.ofExcept (op.apply object left right)
  | unary _ op operand => do
    let operand ← evaluate operand
    Run.ofExcept (op.apply operand)
  | conditional _ cases otherwise => evaluateCases evaluate otherwise cases
  | forLoop _ name start stop step body => do
    let start ← evaluate start
    let stop ← evaluate stop
    let step ← evaluateOptional evaluate step
    let range ← Run.ofExcept (Range.ofBounds start stop step)
    let values ← Run.iterate (forTurn interpreter evaluate name body) rounds (range, [])
    Run.record (.forFinished name values.length)
    Run.newArray values
  | whileLoop _ condition body => do
    let values ← Run.iterate (whileTurn interpreter evaluate condition body) rounds []
    Run.record (.whileFinished values.length)
    Run.newArray values
  | define _ name params site body => do
    let value := Value.function ⟨name, params, site, body⟩
    match name with
    | none => pure value
    | some name =>
      Run.assign name value
      pure value
  | call span callee args => do
    let callee ← evaluate callee
    let args ← evaluateAll evaluate args
    match callee with
    | .function function => interpreter.callFunction evaluate function args span
    | other => Run.raise (.notCallable other.typeName)

/-- Visits a node: writes the visit into the journal, finds the value, and fills in where a failure
happened. -/
def visit (interpreter : Interpreter) (rounds : Nat) (evaluate : Expr → Run Value) (node : Expr) :
    Run Value :=
  Run.stamped node.span do
    Run.record (.visited (← Run.context) node)
    evaluateNode interpreter rounds evaluate node

end Expr

end Treewalk

/-
The language as it would be without handles: a reference to hold the evaluator against.

A store binds names to trees. There are no objects in it, so that binding a name to what another
one is bound to makes a copy that nothing else has a part in, and so does passing an argument or
putting a value into an array. What is bound changes by assignments and by nothing else.

The reference follows the rules of the language and not the text of the evaluator: the frame of a
call is made in one piece from the parameters and the arguments, and loops give the list of their
values directly.
-/
import Treewalk.Limits
import Treewalk.Proofs.Tree

namespace Treewalk

/-- What is bound in the current frame and in those below it, and how many steps were taken. -/
structure Store where
  bindings : String → Option Tree
  callers : List (String → Option Tree)
  steps : Nat

namespace Store

/-- Binds a name of the current frame. -/
def set (store : Store) (name : String) (tree : Tree) : Store :=
  { store with bindings := fun other => if other = name then some tree else store.bindings other }

/-- Opens a frame with the given bindings. -/
def child (store : Store) (bindings : String → Option Tree) : Store :=
  { store with bindings, callers := store.bindings :: store.callers }

end Store

/-- A failure without the frames that its backtrace lists. -/
def Failure.bare (failure : Failure) : Failure :=
  { failure with backtrace := failure.backtrace.map fun _ => ⟨[]⟩ }

/-- A failure whose place is known now, if it was not known before. -/
def Failure.placed (span : Span) (failure : Failure) : Failure :=
  match failure.backtrace with
  | some _ => failure
  | none => { failure with span := some (failure.span.getD span), backtrace := some ⟨[]⟩ }

/-- A computation with trees. It ends with a result or with a failure, and with a store either way,
unless it has not enough fuel. There are no frames for a backtrace to list. -/
abbrev Plain (Result : Type) : Type := ExceptT Failure (StateT Store Option) Result

namespace Plain

variable {Result : Type}

/-- The computation that has not enough fuel. -/
def unfinished : Plain Result := fun _ => none

/-- Fails, at a place that is not known yet. -/
def raise (fault : Fault) : Plain Result := throw (.ofFault fault)

/-- Goes on with a result, or fails with a fault. -/
def ofExcept : Except Fault Result → Plain Result
  | .ok result => pure result
  | .error fault => raise fault

/-- Fills in where a failure happened. -/
def stamped (span : Span) (inner : Plain Result) : Plain Result := inner.adapt (Failure.placed span)

/-- The tree that a name is bound to in the current frame. -/
def lookup (name : String) : Plain Tree := do
  match (← get).bindings name with
  | some tree => pure tree
  | none => raise (.undefinedVariable name)

/-- Binds a name of the current frame. -/
def assign (name : String) (tree : Tree) : Plain Unit := modify (·.set name tree)

/-- Stops on request, else counts a step, and stops when there are more steps than the budget
has. -/
def checkpoint (interpreter : Interpreter) : Plain Unit := do
  if interpreter.interrupted then
    raise .interrupted
  else
    modify fun store => { store with steps := min (store.steps + 1) State.maxSteps }
    match interpreter.limits.budget with
    | none => pure ()
    | some budget => if budget < (← get).steps then raise (.budgetExceeded budget) else pure ()

/-- Computes in a frame of its own. Nothing of that frame is left afterwards. -/
def inFrame (bindings : String → Option Tree) (inner : Plain Result) : Plain Result := fun store =>
  (inner (store.child bindings)).map fun (result, last) =>
    (result, { store with steps := last.steps })

/-- Calls a function with arguments. Each parameter is bound to the last argument that stands beside
it, and nothing else is bound. -/
def callFunction (interpreter : Interpreter) (evaluate : Expr → Plain Tree) (function : Function)
    (args : List Tree) : Plain Tree := do
  checkpoint interpreter
  if interpreter.limits.maxDepth ≤ (← get).callers.length then
    raise (.stackOverflow interpreter.limits.maxDepth)
  else if args.length ≠ function.arity then
    raise (.arityMismatch function.displayName function.arity args.length)
  else
    inFrame (fun name => (function.params.zip args).reverse.lookup name) (evaluate function.body)

/-- The tree of the first body whose condition holds, or else of the branch for no case. -/
def evaluateCases (evaluate : Expr → Plain Tree) (otherwise : Option Expr) :
    List (Expr × Expr) → Plain Tree
  | [] => otherwise.elim (pure .void) evaluate
  | (condition, body) :: rest => do
    if (← evaluate condition).isTruthy then evaluate body
    else evaluateCases evaluate otherwise rest

/-- The trees of the rounds of a counting loop. -/
def forRounds (interpreter : Interpreter) (evaluate : Expr → Plain Tree) (name : String)
    (body : Expr) : Nat → Range → Plain (List Tree)
  | 0, _ => unfinished
  | rounds + 1, range => do
    let (some current, rest) := range.next | pure []
    checkpoint interpreter
    assign name (.number current)
    let tree ← evaluate body
    let trees ← forRounds interpreter evaluate name body rounds rest
    pure (tree :: trees)

/-- The trees of the rounds of a conditional loop. -/
def whileRounds (interpreter : Interpreter) (evaluate : Expr → Plain Tree)
    (condition body : Expr) : Nat → Plain (List Tree)
  | 0 => unfinished
  | rounds + 1 => do
    checkpoint interpreter
    if (← evaluate condition).isTruthy then
      let tree ← evaluate body
      let trees ← whileRounds interpreter evaluate condition body rounds
      pure (tree :: trees)
    else
      pure []

/-- The tree of a node, given those of the nodes below it and how often a loop may go round. -/
def evaluateNode (interpreter : Interpreter) (rounds : Nat) (evaluate : Expr → Plain Tree) :
    Expr → Plain Tree
  | .number _ value => pure (.number value)
  | .string _ value => pure (.string value)
  | .array _ items => do
    let trees ← items.mapM evaluate
    pure (.array trees)
  | .lookup _ name => lookup name
  | .assign _ name value => do
    let tree ← evaluate value
    assign name tree
    pure tree
  | .binary _ op left right => do
    let left ← evaluate left
    let right ← evaluate right
    ofExcept (op.ofTrees left right)
  | .unary _ op operand => do
    let operand ← evaluate operand
    ofExcept (op.ofTree operand)
  | .conditional _ cases otherwise => evaluateCases evaluate otherwise cases
  | .forLoop _ name start stop step body => do
    let start ← evaluate start
    let stop ← evaluate stop
    let step ← step.mapM evaluate
    let range ← ofExcept (Range.ofTrees start stop step)
    let trees ← forRounds interpreter evaluate name body rounds range
    pure (.array trees)
  | .whileLoop _ condition body => do
    let trees ← whileRounds interpreter evaluate condition body rounds
    pure (.array trees)
  | .define _ name params site body => do
    let tree := Tree.function ⟨name, params, site, body⟩
    if let some name := name then
      assign name tree
    pure tree
  | .call _ callee args => do
    let callee ← evaluate callee
    let args ← args.mapM evaluate
    match callee with
    | .function function => callFunction interpreter evaluate function args
    | other => raise (.notCallable other.typeName)

/-- The tree of a node. -/
def eval (interpreter : Interpreter) : Nat → Expr → Plain Tree
  | 0, _ => unfinished
  | fuel + 1, node =>
    stamped node.span (evaluateNode interpreter fuel (eval interpreter fuel) node)

end Plain

end Treewalk

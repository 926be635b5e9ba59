/-
The rules of the language, as a table would have them: what a node comes to and what is bound
afterwards, given what is bound before and how many calls are active. Nothing here runs, and nothing
is said about fuel, steps, handles or journals.

A fault ends whatever it happens in, and what was bound until then stays bound. So for every part of
a node there is a rule for the part failing, and then the rules for what comes after the part.

The numbers of a counting loop are those of the mathematical progression: an integer loop counts in
unbounded integers, so that there is nothing to say about a count that overflows.
-/
import Treewalk.Proofs.Tree

namespace Treewalk

/-- What the names of a frame are bound to. -/
abbrev Bindings : Type := String → Option Tree

namespace Bindings

/-- Nothing is bound. -/
def empty : Bindings := fun _ => none

/-- Binds a name to a tree. -/
def set (bindings : Bindings) (name : String) (tree : Tree) : Bindings := fun other =>
  if other = name then some tree else bindings other

/-- Binds names to the trees that stand beside them, in order. -/
def setAll (bindings : Bindings) : List String → List Tree → Bindings
  | name :: names, tree :: trees => (bindings.set name tree).setAll names trees
  | _, _ => bindings

end Bindings

/-- Where a counting loop is. A loop counts in integers if all of its bounds are integers, and else
in floats. -/
inductive Progression
  | int (current : Int) (stop step : Int64)
  | float (current stop step : Float)

namespace Progression

/-- The number that a bound is. -/
def bound (part : String) : Tree → Except Fault Number
  | .number value => .ok value
  | other => .error (.boundNotNumber part other.typeName)

/-- A loop at its start. -/
def ofNumbers : Number → Number → Number → Progression
  | .int start, .int stop, .int step => int start.toInt stop step
  | start, stop, step => float start.toFloat stop.toFloat step.toFloat

/-- A loop at its start, if the bounds are numbers. -/
def ofBounds (start stop step : Tree) : Except Fault Progression := do
  let start ← bound "start" start
  let stop ← bound "end" stop
  let step ← bound "step" step
  pure (ofNumbers start stop step)

/-- Whether the loop has not come to its end yet. -/
def Before : Progression → Prop
  | int current stop step =>
    if 0 ≤ step.toInt then current < stop.toInt else stop.toInt < current
  | float current stop step => if 0.0 ≤ step then current < stop else stop < current

/-- The current number, if it is one of the language. -/
def number? : Progression → Option Number
  | int current _ _ => (narrow? current).map .int
  | float current _ _ => some (.float current)

/-- The loop one step later. -/
def advanced : Progression → Progression
  | int current stop step => int (current + step.toInt) stop step
  | float current stop step => float (current + step) stop step

end Progression

/-- What there are rules for: nodes, and the parts of them that are not single nodes. -/
inductive Task : Type → Type
  | node (node : Expr) : Task Tree
  /-- Nodes one after the other. -/
  | all (nodes : List Expr) : Task (List Tree)
  /-- A node that may be absent. -/
  | optional (node : Option Expr) : Task (Option Tree)
  /-- The cases of a conditional that are left, and the branch for no case. -/
  | cases (cases : List (Expr × Expr)) (otherwise : Option Expr) : Task Tree
  /-- The rounds of a counting loop that are left. -/
  | forRounds (name : String) (body : Expr) (numbers : Progression) : Task (List Tree)
  /-- The rounds of a conditional loop that are left. -/
  | whileRounds (condition body : Expr) : Task (List Tree)
  /-- A call of a function with arguments. -/
  | call (function : Function) (args : List Tree) : Task Tree

/-- What a task comes to, at some depth of calls and with some bindings, and what is bound
afterwards. At most `most` calls may be active. -/
inductive Derives (most : Nat) :
    {Result : Type} → Nat → Task Result → Bindings → Except Fault Result → Bindings → Prop

  -- Literals and names.
  | number {depth bindings span} {value : Number} :
      Derives most depth (.node (.number span value)) bindings (.ok (.number value)) bindings
  | string {depth bindings span} {value : String} :
      Derives most depth (.node (.string span value)) bindings (.ok (.string value)) bindings
  | array {depth bindings after span} {nodes : List Expr} {trees : Except Fault (List Tree)}
      (items : Derives most depth (.all nodes) bindings trees after) :
      Derives most depth (.node (.array span nodes)) bindings (trees.map .array) after
  | bound {depth bindings span} {name : String} {tree : Tree}
      (known : bindings name = some tree) :
      Derives most depth (.node (.lookup span name)) bindings (.ok tree) bindings
  | unbound {depth bindings span} {name : String} (unknown : bindings name = none) :
      Derives most depth (.node (.lookup span name)) bindings (.error (.undefinedVariable name))
        bindings

  -- A name is bound only when its value is there.
  | assign {depth bindings after span} {name : String} {node : Expr} {tree : Tree}
      (value : Derives most depth (.node node) bindings (.ok tree) after) :
      Derives most depth (.node (.assign span name node)) bindings (.ok tree) (after.set name tree)
  | assignFails {depth bindings after span} {name : String} {node : Expr} {fault : Fault}
      (value : Derives most depth (.node node) bindings (.error fault) after) :
      Derives most depth (.node (.assign span name node)) bindings (.error fault) after

  -- Both operands are evaluated, the left one first, whatever the operator.
  | binary {depth bindings middle after span} {op : BinaryOperator} {left right : Expr}
      {leftTree rightTree : Tree}
      (first : Derives most depth (.node left) bindings (.ok leftTree) middle)
      (second : Derives most depth (.node right) middle (.ok rightTree) after) :
      Derives most depth (.node (.binary span op left right)) bindings
        (op.ofTrees leftTree rightTree) after
  | leftFails {depth bindings after span} {op : BinaryOperator} {left right : Expr}
      {fault : Fault}
      (first : Derives most depth (.node left) bindings (.error fault) after) :
      Derives most depth (.node (.binary span op left right)) bindings (.error fault) after
  | rightFails {depth bindings middle after span} {op : BinaryOperator} {left right : Expr}
      {leftTree : Tree} {fault : Fault}
      (first : Derives most depth (.node left) bindings (.ok leftTree) middle)
      (second : Derives most depth (.node right) middle (.error fault) after) :
      Derives most depth (.node (.binary span op left right)) bindings (.error fault) after
  | unary {depth bindings after span} {op : UnaryOperator} {operand : Expr} {tree : Tree}
      (value : Derives most depth (.node operand) bindings (.ok tree) after) :
      Derives most depth (.node (.unary span op operand)) bindings (op.ofTree tree) after
  | unaryFails {depth bindings after span} {op : UnaryOperator} {operand : Expr} {fault : Fault}
      (value : Derives most depth (.node operand) bindings (.error fault) after) :
      Derives most depth (.node (.unary span op operand)) bindings (.error fault) after

  -- Of the cases only the first that holds, and nothing behind it.
  | conditional {depth bindings after span} {cases : List (Expr × Expr)} {otherwise : Option Expr}
      {result : Except Fault Tree}
      (chosen : Derives most depth (.cases cases otherwise) bindings result after) :
      Derives most depth (.node (.conditional span cases otherwise)) bindings result after
  | noCase {depth bindings} : Derives most depth (.cases [] none) bindings (.ok .void) bindings
  | otherwise {depth bindings after} {node : Expr} {result : Except Fault Tree}
      (value : Derives most depth (.node node) bindings result after) :
      Derives most depth (.cases [] (some node)) bindings result after
  | caseHolds {depth bindings middle after} {condition body : Expr} {rest : List (Expr × Expr)}
      {otherwise : Option Expr} {tree : Tree} {result : Except Fault Tree}
      (first : Derives most depth (.node condition) bindings (.ok tree) middle)
      (holds : tree.isTruthy = true)
      (value : Derives most depth (.node body) middle result after) :
      Derives most depth (.cases ((condition, body) :: rest) otherwise) bindings result after
  | caseSkipped {depth bindings middle after} {condition body : Expr} {rest : List (Expr × Expr)}
      {otherwise : Option Expr} {tree : Tree} {result : Except Fault Tree}
      (first : Derives most depth (.node condition) bindings (.ok tree) middle)
      (fails : tree.isTruthy = false)
      (later : Derives most depth (.cases rest otherwise) middle result after) :
      Derives most depth (.cases ((condition, body) :: rest) otherwise) bindings result after
  | caseFails {depth bindings after} {condition body : Expr} {rest : List (Expr × Expr)}
      {otherwise : Option Expr} {fault : Fault}
      (first : Derives most depth (.node condition) bindings (.error fault) after) :
      Derives most depth (.cases ((condition, body) :: rest) otherwise) bindings (.error fault)
        after

  -- The bounds of a counting loop are evaluated once, and every body value is collected.
  | forLoop {depth bindings started stopped stepped after span} {name : String}
      {start stop body : Expr} {step : Option Expr} {startTree stopTree : Tree}
      {stepTree : Option Tree} {numbers : Progression} {trees : Except Fault (List Tree)}
      (first : Derives most depth (.node start) bindings (.ok startTree) started)
      (second : Derives most depth (.node stop) started (.ok stopTree) stopped)
      (third : Derives most depth (.optional step) stopped (.ok stepTree) stepped)
      (bounds : Progression.ofBounds startTree stopTree (stepTree.getD (.number (.int 1))) =
        .ok numbers)
      (rounds : Derives most depth (.forRounds name body numbers) stepped trees after) :
      Derives most depth (.node (.forLoop span name start stop step body)) bindings
        (trees.map .array) after
  | forStartFails {depth bindings after span} {name : String} {start stop body : Expr}
      {step : Option Expr} {fault : Fault}
      (first : Derives most depth (.node start) bindings (.error fault) after) :
      Derives most depth (.node (.forLoop span name start stop step body)) bindings (.error fault)
        after
  | forStopFails {depth bindings started after span} {name : String} {start stop body : Expr}
      {step : Option Expr} {startTree : Tree} {fault : Fault}
      (first : Derives most depth (.node start) bindings (.ok startTree) started)
      (second : Derives most depth (.node stop) started (.error fault) after) :
      Derives most depth (.node (.forLoop span name start stop step body)) bindings (.error fault)
        after
  | forStepFails {depth bindings started stopped after span} {name : String}
      {start stop body : Expr} {step : Option Expr} {startTree stopTree : Tree} {fault : Fault}
      (first : Derives most depth (.node start) bindings (.ok startTree) started)
      (second : Derives most depth (.node stop) started (.ok stopTree) stopped)
      (third : Derives most depth (.optional step) stopped (.error fault) after) :
      Derives most depth (.node (.forLoop span name start stop step body)) bindings (.error fault)
        after
  | forBoundsFail {depth bindings started stopped after span} {name : String}
      {start stop body : Expr} {step : Option Expr} {startTree stopTree : Tree}
      {stepTree : Option Tree} {fault : Fault}
      (first : Derives most depth (.node start) bindings (.ok startTree) started)
      (second : Derives most depth (.node stop) started (.ok stopTree) stopped)
      (third : Derives most depth (.optional step) stopped (.ok stepTree) after)
      (bounds : Progression.ofBounds startTree stopTree (stepTree.getD (.number (.int 1))) =
        .error fault) :
      Derives most depth (.node (.forLoop span name start stop step body)) bindings (.error fault)
        after
  | forEnds {depth bindings} {name : String} {body : Expr} {numbers : Progression}
      (ended : ¬ numbers.Before) :
      Derives most depth (.forRounds name body numbers) bindings (.ok []) bindings
  | forRound {depth bindings middle after} {name : String} {body : Expr} {numbers : Progression}
      {current : Number} {tree : Tree} {trees : Except Fault (List Tree)}
      (before : numbers.Before) (stands : numbers.number? = some current)
      (value : Derives most depth (.node body) (bindings.set name (.number current))
        (.ok tree) middle)
      (later : Derives most depth (.forRounds name body numbers.advanced) middle trees after) :
      Derives most depth (.forRounds name body numbers) bindings (trees.map (tree :: ·)) after
  | forBodyFails {depth bindings after} {name : String} {body : Expr} {numbers : Progression}
      {current : Number} {fault : Fault}
      (before : numbers.Before) (stands : numbers.number? = some current)
      (value : Derives most depth (.node body) (bindings.set name (.number current))
        (.error fault) after) :
      Derives most depth (.forRounds name body numbers) bindings (.error fault) after

  -- The condition of a conditional loop is looked at before every round.
  | whileLoop {depth bindings after span} {condition body : Expr}
      {trees : Except Fault (List Tree)}
      (rounds : Derives most depth (.whileRounds condition body) bindings trees after) :
      Derives most depth (.node (.whileLoop span condition body)) bindings (trees.map .array) after
  | whileEnds {depth bindings after} {condition body : Expr} {tree : Tree}
      (first : Derives most depth (.node condition) bindings (.ok tree) after)
      (fails : tree.isTruthy = false) :
      Derives most depth (.whileRounds condition body) bindings (.ok []) after
  | whileRound {depth bindings middle last after} {condition body : Expr} {held tree : Tree}
      {trees : Except Fault (List Tree)}
      (first : Derives most depth (.node condition) bindings (.ok held) middle)
      (holds : held.isTruthy = true)
      (value : Derives most depth (.node body) middle (.ok tree) last)
      (later : Derives most depth (.whileRounds condition body) last trees after) :
      Derives most depth (.whileRounds condition body) bindings (trees.map (tree :: ·)) after
  | whileConditionFails {depth bindings after} {condition body : Expr} {fault : Fault}
      (first : Derives most depth (.node condition) bindings (.error fault) after) :
      Derives most depth (.whileRounds condition body) bindings (.error fault) after
  | whileBodyFails {depth bindings middle after} {condition body : Expr} {held : Tree}
      {fault : Fault}
      (first : Derives most depth (.node condition) bindings (.ok held) middle)
      (holds : held.isTruthy = true)
      (value : Derives most depth (.node body) middle (.error fault) after) :
      Derives most depth (.whileRounds condition body) bindings (.error fault) after

  -- A definition captures nothing, and binds its name if it has one.
  | define {depth bindings span} {params : List String} {site : Nat} {body : Expr} :
      Derives most depth (.node (.define span none params site body)) bindings
        (.ok (.function ⟨none, params, site, body⟩)) bindings
  | defineNamed {depth bindings span} {name : String} {params : List String} {site : Nat}
      {body : Expr} :
      Derives most depth (.node (.define span (some name) params site body)) bindings
        (.ok (.function ⟨some name, params, site, body⟩))
        (bindings.set name (.function ⟨some name, params, site, body⟩))

  -- Callee and arguments come before the question whether the callee can be called.
  | call {depth bindings middle last after span} {callee : Expr} {nodes : List Expr}
      {function : Function} {args : List Tree} {result : Except Fault Tree}
      (first : Derives most depth (.node callee) bindings (.ok (.function function)) middle)
      (second : Derives most depth (.all nodes) middle (.ok args) last)
      (called : Derives most depth (.call function args) last result after) :
      Derives most depth (.node (.call span callee nodes)) bindings result after
  | calleeFails {depth bindings after span} {callee : Expr} {nodes : List Expr} {fault : Fault}
      (first : Derives most depth (.node callee) bindings (.error fault) after) :
      Derives most depth (.node (.call span callee nodes)) bindings (.error fault) after
  | argsFail {depth bindings middle after span} {callee : Expr} {nodes : List Expr} {tree : Tree}
      {fault : Fault}
      (first : Derives most depth (.node callee) bindings (.ok tree) middle)
      (second : Derives most depth (.all nodes) middle (.error fault) after) :
      Derives most depth (.node (.call span callee nodes)) bindings (.error fault) after
  | notCallable {depth bindings middle after span} {callee : Expr} {nodes : List Expr}
      {tree : Tree} {args : List Tree}
      (first : Derives most depth (.node callee) bindings (.ok tree) middle)
      (second : Derives most depth (.all nodes) middle (.ok args) after)
      (other : ∀ function, tree ≠ .function function) :
      Derives most depth (.node (.call span callee nodes)) bindings
        (.error (.notCallable tree.typeName)) after

  -- The depth of calls is looked at before the number of arguments. A body has bindings of its own.
  | tooDeep {depth bindings} {function : Function} {args : List Tree} (deep : most ≤ depth) :
      Derives most depth (.call function args) bindings (.error (.stackOverflow most)) bindings
  | wrongCount {depth bindings} {function : Function} {args : List Tree} (shallow : depth < most)
      (differs : args.length ≠ function.arity) :
      Derives most depth (.call function args) bindings
        (.error (.arityMismatch function.displayName function.arity args.length)) bindings
  | body {depth bindings inner} {function : Function} {args : List Tree}
      {result : Except Fault Tree}
      (shallow : depth < most) (counts : args.length = function.arity)
      (value : Derives most (depth + 1) (.node function.body)
        (Bindings.empty.setAll function.params args) result inner) :
      Derives most depth (.call function args) bindings result bindings

  -- Nodes one after the other, and a node that may be absent.
  | none {depth bindings} : Derives most depth (.all []) bindings (.ok []) bindings
  | more {depth bindings middle after} {node : Expr} {rest : List Expr} {tree : Tree}
      {trees : Except Fault (List Tree)}
      (first : Derives most depth (.node node) bindings (.ok tree) middle)
      (later : Derives most depth (.all rest) middle trees after) :
      Derives most depth (.all (node :: rest)) bindings (trees.map (tree :: ·)) after
  | oneFails {depth bindings after} {node : Expr} {rest : List Expr} {fault : Fault}
      (first : Derives most depth (.node node) bindings (.error fault) after) :
      Derives most depth (.all (node :: rest)) bindings (.error fault) after
  | absent {depth bindings} : Derives most depth (.optional .none) bindings (.ok .none) bindings
  | present {depth bindings after} {node : Expr} {tree : Except Fault Tree}
      (value : Derives most depth (.node node) bindings tree after) :
      Derives most depth (.optional (some node)) bindings (tree.map some) after

end Treewalk

/-
The parts that evaluations are put together from, and what a run came to when it is put together
from others.

The evaluator is written in `do` blocks over the state. What is proved about it is proved about its
parts, one after the other, so the parts have names here: a visit, a lookup, what is done around a
run, the look at the depth of calls, the body of a call. Each is equal to what the evaluator does,
by `rfl` where it says so.
-/
import Treewalk.Evaluation.Evaluate

namespace Treewalk

namespace Outcome

variable {Result : Type}

/-- The fault that a run failed with, if it did. -/
def fault? : Outcome Result → Option Fault
  | failure reason _ => some reason.fault
  | value .. | unfinished => none

/-- Where a run failed, as far as that is known. -/
def place? : Outcome Result → Option (Option Span × Option Backtrace)
  | failure reason _ => some (reason.span, reason.backtrace)
  | value .. | unfinished => none

end Outcome

/-! ### Runs with names -/

namespace Run

/-- Writes the visit of a node into the journal. -/
def enter (node : Expr) : Run Unit := do
  Run.record (.visited (← Run.context) node)

/-- The value of a name in the current frame. -/
def lookup (name : String) : Run Value := do
  match (← Run.context).get? name with
  | some value => pure value
  | none => Run.raise (.undefinedVariable name)

theorem lookup_apply (name : String) (state : State) :
    lookup name state =
      match state.context.get? name with
      | some value => .value value state
      | none => Run.raise (.undefinedVariable name) state := by
  show (match state.context.get? name with
    | some value => pure value
    | none => Run.raise (.undefinedVariable name) : Run Value) state = _
  cases state.context.get? name <;> rfl

/-- A run with something done in front of it and behind it, however it ends. Stamping a failure,
putting events around a run and running in a frame of its own are all of this form. -/
def wrapped {Result : Type} (start : State → State) (mark : State → Failure → Failure)
    (finish : State → State → State) (inner : Run Result) : Run Result := fun state =>
  match inner (start state) with
  | .value result last => .value result (finish state last)
  | .failure failure last => .failure (mark last failure) (finish state last)
  | .unfinished => .unfinished

theorem wrapped_apply {Result : Type} (start : State → State) (mark : State → Failure → Failure)
    (finish : State → State → State) (inner : Run Result) (state : State) :
    wrapped start mark finish inner state =
      match inner (start state) with
      | .value result last => .value result (finish state last)
      | .failure failure last => .failure (mark last failure) (finish state last)
      | .unfinished => .unfinished := rfl

theorem stamped_eq {Result : Type} (span : Span) (inner : Run Result) :
    stamped span inner =
      wrapped id (fun last => last.context.stamp span) (fun _ last => last) inner := rfl

theorem between_eq {Result : Type} (before after : Event) (inner : Run Result) :
    between before after inner =
      wrapped (fun state => state.record before) (fun _ failure => failure)
        (fun _ last => last.record after) inner := rfl

theorem inFrame_eq {Result : Type} (name : String) (entry : Span) (inner : Run Result) :
    inFrame name entry inner =
      wrapped (fun state => { state with context := state.context.child name entry })
        (fun _ failure => failure) (fun state last => { last with context := state.context })
        inner := rfl

end Run

/-- The state after one more step was counted. -/
def State.counted (state : State) : State :=
  let count := min (state.steps + 1) State.maxSteps
  { state with steps := count }.record (.stepped count)

namespace Interpreter

theorem checkpoint_apply (interpreter : Interpreter) (state : State) :
    interpreter.checkpoint state =
      if interpreter.interrupted then Run.raise .interrupted (state.record (.gaveIn state.steps))
      else
        match interpreter.limits.budget with
        | none => .value () state.counted
        | some budget =>
          if budget < state.counted.steps then
            Run.raise (.budgetExceeded budget) (state.counted.record (.budgetSpent budget))
          else .value () state.counted := by
  unfold checkpoint
  split
  · rfl
  · show (match interpreter.limits.budget with
      | none => pure ()
      | some budget => if budget < state.counted.steps then _ else pure () : Run Unit)
        state.counted = _
    cases interpreter.limits.budget with
    | none => rfl
    | some budget =>
      dsimp only
      split <;> rfl

/-- Goes on unless calls are nested as deeply as they may be. -/
def descend {Result : Type} (interpreter : Interpreter) (inner : Run Result) : Run Result := do
  if interpreter.limits.maxDepth ≤ (← Run.context).depth then
    Run.raise (.stackOverflow interpreter.limits.maxDepth)
  else
    inner

theorem descend_apply {Result : Type} (interpreter : Interpreter) (inner : Run Result)
    (state : State) :
    interpreter.descend inner state =
      if interpreter.limits.maxDepth ≤ state.context.depth then
        Run.raise (.stackOverflow interpreter.limits.maxDepth) state
      else inner state := by
  show (if interpreter.limits.maxDepth ≤ state.context.depth then _ else _ : Run Result) state = _
  split <;> rfl

/-- What is left of a call once the limits allow it. -/
def enterBody (evaluate : Expr → Run Value) (function : Function) (args : List Value)
    (span : Span) : Run Value :=
  if args.length ≠ function.arity then
    Run.raise (.arityMismatch function.displayName function.arity args.length)
  else
    Run.inFrame function.displayName span do
      Run.assignAll function.params args
      evaluate function.body

theorem callFunction_eq (interpreter : Interpreter) (evaluate : Expr → Run Value)
    (function : Function) (args : List Value) (span : Span) :
    interpreter.callFunction evaluate function args span =
      Run.between (.callEntered function.displayName args.length)
        (.callLeft function.displayName args.length)
        (interpreter.checkpoint >>= fun _ =>
          interpreter.descend (enterBody evaluate function args span)) := rfl

end Interpreter

theorem Expr.visit_eq (interpreter : Interpreter) (rounds : Nat) (evaluate : Expr → Run Value)
    (node : Expr) :
    Expr.visit interpreter rounds evaluate node =
      Run.stamped node.span
        (Run.enter node >>= fun _ => evaluateNode interpreter rounds evaluate node) := rfl

/-! ### How runs came to their ends -/

namespace Run

variable {Result Other : Type}

theorem bind_eq_value {first : Run Result} {next : Result → Run Other} {state last : State}
    {other : Other} (ended : (first >>= next) state = .value other last) :
    ∃ result middle, first state = .value result middle ∧
      next result middle = .value other last := by
  rw [bind_apply] at ended
  cases found : first state with
  | value result middle =>
    rw [found] at ended
    exact ⟨result, middle, rfl, ended⟩
  | failure | unfinished =>
    rw [found] at ended
    cases ended

theorem bind_eq_failure {first : Run Result} {next : Result → Run Other} {state last : State}
    {failure : Failure} (ended : (first >>= next) state = .failure failure last) :
    first state = .failure failure last ∨
      ∃ result middle, first state = .value result middle ∧
        next result middle = .failure failure last := by
  rw [bind_apply] at ended
  cases found : first state with
  | value result middle =>
    rw [found] at ended
    exact .inr ⟨result, middle, rfl, ended⟩
  | failure failure middle =>
    rw [found] at ended
    cases ended
    exact .inl rfl
  | unfinished =>
    rw [found] at ended
    cases ended

/-- What two parts of a run leave behind is what the second one leaves, or what the first one failed
in. -/
theorem bind_leaves {first : Run Result} {next : Result → Run Other} {state last : State}
    (left : ((first >>= next) state).after? = some last) :
    (∃ result middle, first state = .value result middle ∧
      (next result middle).after? = some last) ∨
    ∃ failure, first state = .failure failure last := by
  rw [bind_apply] at left
  cases found : first state with
  | value result middle =>
    rw [found] at left
    exact .inl ⟨result, middle, rfl, left⟩
  | failure failure middle =>
    rw [found] at left
    cases left
    exact .inr ⟨failure, rfl⟩
  | unfinished =>
    rw [found] at left
    cases left

variable {start : State → State} {mark : State → Failure → Failure}
  {finish : State → State → State} {inner : Run Result} {state after : State}

theorem wrapped_eq_value {result : Result}
    (ended : wrapped start mark finish inner state = .value result after) :
    ∃ last, inner (start state) = .value result last ∧ finish state last = after := by
  rw [wrapped_apply] at ended
  cases found : inner (start state) with
  | value result last =>
    rw [found] at ended
    cases ended
    exact ⟨last, rfl, rfl⟩
  | failure | unfinished =>
    rw [found] at ended
    cases ended

theorem wrapped_eq_failure {failure : Failure}
    (ended : wrapped start mark finish inner state = .failure failure after) :
    ∃ inside last, inner (start state) = .failure inside last ∧ mark last inside = failure ∧
      finish state last = after := by
  rw [wrapped_apply] at ended
  cases found : inner (start state) with
  | failure inside last =>
    rw [found] at ended
    cases ended
    exact ⟨inside, last, rfl, rfl, rfl⟩
  | value | unfinished =>
    rw [found] at ended
    cases ended

theorem wrapped_leaves (left : (wrapped start mark finish inner state).after? = some after) :
    ∃ last, (inner (start state)).after? = some last ∧ finish state last = after := by
  rw [wrapped_apply] at left
  cases found : inner (start state) with
  | value | failure =>
    rw [found] at left
    exact ⟨_, rfl, Option.some.inj left⟩
  | unfinished =>
    rw [found] at left
    cases left

end Run

end Treewalk

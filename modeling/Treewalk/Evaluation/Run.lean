/-
Runs: computations that act on the state of an evaluation.

A run ends with a value or with a failure, and either way with a state: what was bound before a
failure stays bound. A run may also end with neither, when it was not given enough fuel to get to
its end; then nothing is known about it. The few runs below are all that ever touches the state,
and each of them writes what it does into the journal.
-/
import Treewalk.Journal

namespace Treewalk

/-- What an evaluation acts on. -/
structure State where
  context : Context
  /-- How many steps the current evaluation has taken. -/
  steps : Nat
  /-- The number of the next array object. -/
  nextObject : Nat
  journal : Journal

namespace State

/-- A state before any evaluation. -/
def initial (context : Context) : State := ⟨context, 0, 0, []⟩

/-- The count of steps is a machine word, and stays at the greatest one. -/
def maxSteps : Nat := UInt64.size - 1

/-- Writes an event into the journal. -/
def record (state : State) (event : Event) : State :=
  { state with journal := event :: state.journal }

end State

/-- How a run ended. -/
inductive Outcome (Result : Type)
  | value (result : Result) (after : State)
  | failure (failure : Failure) (after : State)
  /-- The fuel was used up before the end. -/
  | unfinished

/-- The state that a run left behind, if it came to its end. -/
def Outcome.after? {Result : Type} : Outcome Result → Option State
  | value _ after | failure _ after => some after
  | unfinished => none

/-- A computation that acts on the state of an evaluation. -/
def Run (Result : Type) : Type := State → Outcome Result

/-- Whether a loop goes round again. -/
inductive Turn (Loop Result : Type)
  | again (loop : Loop)
  | done (result : Result)

namespace Run

variable {Result Other Loop : Type}

/-- The run that does nothing. -/
@[inline] protected def pure (result : Result) : Run Result := fun state => .value result state

/-- One run after the other. Nothing is done after a failure. -/
@[inline] protected def bind (first : Run Result) (next : Result → Run Other) : Run Other :=
  fun state =>
    match first state with
    | .value result after => next result after
    | .failure failure after => .failure failure after
    | .unfinished => .unfinished

instance : Monad Run where
  pure := Run.pure
  bind := Run.bind

/-- The run that has not enough fuel. -/
def unfinished : Run Result := fun _ => .unfinished

/-- Writes an event into the journal. -/
def record (event : Event) : Run Unit := fun state => .value () (state.record event)

/-- Fails with a fault. -/
def raise (fault : Fault) : Run Result := fun state =>
  .failure (.ofFault fault) (state.record (.raised fault))

/-- Goes on with a result, or fails with a fault. -/
def ofExcept : Except Fault Result → Run Result
  | .ok result => Run.pure result
  | .error fault => raise fault

/-- The current context. -/
def context : Run Context := fun state => .value state.context state

/-- How many steps the current evaluation has taken. -/
def steps : Run Nat := fun state => .value state.steps state

/-- Binds a name in the current frame. -/
def assign (name : String) (value : Value) : Run Unit := fun state =>
  .value ()
    ({ state with context := state.context.set name value }.record
      (.bound state.context name value))

/-- Binds names to values, in order, as far as there are both. -/
def assignAll : List String → List Value → Run Unit
  | name :: names, value :: values => do
    assign name value
    assignAll names values
  | _, _ => Run.pure ()

/-- Counts a step and gives the new count. -/
def step : Run Nat := fun state =>
  let count := min (state.steps + 1) State.maxSteps
  .value count ({ state with steps := count }.record (.stepped count))

/-- A number that no array object has yet. -/
def newObject : Run Nat := fun state =>
  .value state.nextObject { state with nextObject := state.nextObject + 1 }

/-- A handle to a new array object. -/
def newArray (items : List Value) : Run Value := do
  let object ← newObject
  pure (.ofItems object items)

/-- Starts a new count of steps. -/
def resetSteps : Run Unit := fun state => .value () { state with steps := 0 }

/-- Puts one event in front of a run and one behind it, however it ends. -/
def between (before after : Event) (inner : Run Result) : Run Result := fun state =>
  match inner (state.record before) with
  | .value result last => .value result (last.record after)
  | .failure failure last => .failure failure (last.record after)
  | .unfinished => .unfinished

/-- Runs in a frame of its own, opened by a call at a given span. However the run ends, the context
is afterwards the one that the frame was opened in. -/
def inFrame (name : String) (entry : Span) (inner : Run Result) : Run Result := fun state =>
  match inner { state with context := state.context.child name entry } with
  | .value result last => .value result { last with context := state.context }
  | .failure failure last => .failure failure { last with context := state.context }
  | .unfinished => .unfinished

/-- Fills in where a failure of a run happened, unless the failure knows it already. -/
def stamped (span : Span) (inner : Run Result) : Run Result := fun state =>
  match inner state with
  | .value result last => .value result last
  | .failure failure last => .failure (last.context.stamp span failure) last
  | .unfinished => .unfinished

/-- Goes round a loop until it is done, at most `rounds` times. -/
def iterate (turn : Loop → Run (Turn Loop Result)) : Nat → Loop → State → Outcome Result
  | 0, _, _ => .unfinished
  | rounds + 1, loop, state =>
    match turn loop state with
    | .value (.again next) after => iterate turn rounds next after
    | .value (.done result) after => .value result after
    | .failure failure after => .failure failure after
    | .unfinished => .unfinished

theorem pure_apply (result : Result) (state : State) :
    (pure result : Run Result) state = .value result state := rfl

theorem bind_apply (first : Run Result) (next : Result → Run Other) (state : State) :
    (first >>= next) state =
      match first state with
      | .value result after => next result after
      | .failure failure after => .failure failure after
      | .unfinished => .unfinished := rfl

theorem iterate_apply (turn : Loop → Run (Turn Loop Result)) (rounds : Nat) (loop : Loop)
    (state : State) :
    iterate turn (rounds + 1) loop state =
      match turn loop state with
      | .value (.again next) after => iterate turn rounds next after
      | .value (.done result) after => .value result after
      | .failure failure after => .failure failure after
      | .unfinished => .unfinished := rfl

/-- A loop is its first turn and, if that was not the last one, the loop from there on. -/
theorem iterate_succ (turn : Loop → Run (Turn Loop Result)) (rounds : Nat) (loop : Loop) :
    (iterate turn (rounds + 1) loop : Run Result) =
      (turn loop >>= fun
        | .again next => iterate turn rounds next
        | .done result => pure result) := by
  funext state
  rw [bind_apply, iterate]
  cases turn loop state with
  | value result after => cases result <;> rfl
  | failure failure after => rfl
  | unfinished => rfl

instance : LawfulMonad Run := by
  refine LawfulMonad.mk' Run (fun run => ?_) (fun _ _ => rfl) (fun run _ _ => ?_)
  · funext state
    show (match run state with
      | .value result after => _
      | .failure failure after => _
      | .unfinished => _) = _
    cases run state <;> rfl
  · funext state
    simp only [bind_apply]
    cases run state <;> rfl

end Run

end Treewalk

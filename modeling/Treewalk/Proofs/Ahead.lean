/-
This file proves that an evaluation depends on the step count that it starts from only where the
budget is looked at, and on its journal not at all.

Two evaluations of one program are compared, from states that are the same but for their journals
and for a number of steps that the first one is ahead by. They go the same way, and the one stays
ahead of the other by that number, capped at the greatest machine word. They can part in one place
only: at a checkpoint where the first count is beyond the budget and the second one is not yet.
Nothing is known of the second evaluation from there on but that it takes no step back, so that,
with the lead, it has come beyond the budget too (`Run.Ahead.grows`).

Without a lead the two do not part, and the comparison says that nobody reads the journal.
-/
import Treewalk.Proofs.Comparison

namespace Treewalk

variable {Result Other : Type}

/-! ### States and runs that are ahead -/

/-- Whether a state is another one but for the journal, some steps ahead. -/
structure State.Ahead (lead : Nat) (state other : State) : Prop where
  context : state.context = other.context
  nextObject : state.nextObject = other.nextObject
  steps : state.steps = min (lead + other.steps) State.maxSteps
  capped : other.steps ≤ State.maxSteps

namespace State.Ahead

variable {lead : Nat} {state other : State}

/-- A step on both sides leaves the lead as it is. -/
theorem counted (ahead : state.Ahead lead other) : state.counted.Ahead lead other.counted := by
  have steps := ahead.steps
  have capped := ahead.capped
  refine ⟨ahead.context, ahead.nextObject, ?_, Nat.min_le_right _ _⟩
  show min (state.steps + 1) maxSteps = min (lead + min (other.steps + 1) maxSteps) maxSteps
  omega

/-- Without a lead the counts are the same. -/
theorem steps_eq (ahead : state.Ahead 0 other) : state.steps = other.steps := by
  have steps := ahead.steps
  have capped := ahead.capped
  omega

/-- What is written into the two journals does not matter. -/
theorem record (ahead : state.Ahead lead other) (event event' : Event) :
    (state.record event).Ahead lead (other.record event') :=
  ⟨ahead.context, ahead.nextObject, ahead.steps, ahead.capped⟩

end State.Ahead

/-- Whether two runs came to the same end, the first one some steps ahead, or the first one has gone
beyond the budget and the second one has, if its end is known, with the lead as well. -/
inductive Outcome.Ahead (lead : Nat) (budget : Option Nat) : Outcome Result → Outcome Result → Prop
  | value (result : Result) {after after' : State} (ahead : after.Ahead lead after') :
    Ahead lead budget (.value result after) (.value result after')
  | failure (failure : Failure) {after after' : State} (ahead : after.Ahead lead after') :
    Ahead lead budget (.failure failure after) (.failure failure after')
  | unfinished : Ahead lead budget .unfinished .unfinished
  | spent {most : Nat} {failure : Failure} {after : State} {ending : Outcome Result}
    (leads : 0 < lead) (limit : budget = some most) (fault : failure.fault = .budgetExceeded most)
    (beyond : ∀ after', ending.after? = some after' →
      most < lead + min after'.steps State.maxSteps) :
    Ahead lead budget (.failure failure after) ending

/-- Whether a run comes to the end that another one comes to some steps ahead, unless it goes beyond
the budget, and the other one takes no step back. -/
structure Run.Ahead (lead : Nat) (budget : Option Nat) (run run' : Run Result) : Prop where
  follows : ∀ state state' : State, state.Ahead lead state' →
    (run state).Ahead lead budget (run' state')
  grows : ∀ state after, (run' state).after? = some after →
    min state.steps State.maxSteps ≤ after.steps

namespace Run.Ahead

variable {lead : Nat} {budget : Option Nat}

/-! ### Parts that take no step -/

theorem pure (result : Result) : Ahead lead budget (Pure.pure result) (Pure.pure result) :=
  ⟨fun _ _ ahead => .value result ahead, fun state after left => by
    cases left
    exact Nat.min_le_left _ _⟩

theorem unfinished : Ahead lead budget (Run.unfinished : Run Result) Run.unfinished :=
  ⟨fun _ _ _ => .unfinished, fun _ _ left => by cases left⟩

theorem raise (fault : Fault) :
    Ahead lead budget (Run.raise fault : Run Result) (Run.raise fault) :=
  ⟨fun _ _ ahead => .failure _ (ahead.record _ _), fun state after left => by
    cases left
    exact Nat.min_le_left _ _⟩

theorem record (event : Event) : Ahead lead budget (Run.record event) (Run.record event) :=
  ⟨fun _ _ ahead => .value () (ahead.record _ _), fun state after left => by
    cases left
    exact Nat.min_le_left _ _⟩

theorem enter (node : Expr) : Ahead lead budget (Run.enter node) (Run.enter node) :=
  ⟨fun _ _ ahead => .value () (ahead.record _ _), fun state after left => by
    cases left
    exact Nat.min_le_left _ _⟩

theorem lookup (name : String) : Ahead lead budget (Run.lookup name) (Run.lookup name) := by
  refine ⟨fun state state' ahead => ?_, fun state after left => ?_⟩
  · rw [lookup_apply, lookup_apply, ahead.context]
    cases state'.context.get? name with
    | none => exact (raise _).follows state state' ahead
    | some value => exact .value value ahead
  · rw [lookup_apply] at left
    split at left <;> cases left <;> exact Nat.min_le_left _ _

theorem assign (name : String) (value : Value) :
    Ahead lead budget (Run.assign name value) (Run.assign name value) := by
  refine ⟨fun state state' ahead => .value () ⟨?_, ahead.nextObject, ahead.steps, ahead.capped⟩,
    fun state after left => ?_⟩
  · exact congrArg (Context.set · name value) ahead.context
  · cases left
    exact Nat.min_le_left _ _

theorem newObject : Ahead lead budget Run.newObject Run.newObject := by
  refine ⟨fun state state' ahead => ?_, fun state after left => ?_⟩
  · show Outcome.Ahead _ _ (.value state.nextObject _) (.value state'.nextObject _)
    rw [ahead.nextObject]
    exact .value _ ⟨ahead.context, rfl, ahead.steps, ahead.capped⟩
  · cases left
    exact Nat.min_le_left _ _

/-! ### Ways of putting runs together -/

/-- If the first part went beyond the budget, the other side is beyond it for good. -/
theorem bind {first first' : Run Result} {next next' : Result → Run Other}
    (start : Ahead lead budget first first')
    (rest : ∀ result, Ahead lead budget (next result) (next' result)) :
    Ahead lead budget (first >>= next) (first' >>= next') := by
  refine ⟨fun state state' ahead => ?_, fun state after left => ?_⟩
  · have ends := start.follows state state' ahead
    rw [bind_apply, bind_apply]
    generalize first state = ending at ends
    generalize ended : first' state' = ending' at ends
    cases ends with
    | value result ahead => exact (rest result).follows _ _ ahead
    | failure failure ahead => exact .failure failure ahead
    | unfinished => exact .unfinished
    | spent leads limit fault beyond =>
      refine .spent leads limit fault fun after' left => ?_
      cases ending' with
      | value result middle =>
        have later := (rest result).grows middle after' left
        have reached := beyond middle rfl
        omega
      | failure failure middle => exact beyond after' left
      | unfinished => cases left
  · rcases bind_leaves left with ⟨result, middle, given, left⟩ | ⟨failure, failed⟩
    · have reached := start.grows state middle (congrArg Outcome.after? given)
      have later := (rest result).grows middle after left
      omega
    · exact start.grows state after (congrArg Outcome.after? failed)

/-- A wrapper that counts no step and marks a failure by the context alone. -/
theorem wrapped {inner inner' : Run Result} (same : Ahead lead budget inner inner')
    {start : State → State} {mark : State → Failure → Failure} {finish : State → State → State}
    (started : ∀ state state', state.Ahead lead state' → (start state).Ahead lead (start state'))
    (marked : ∀ last last', last.Ahead lead last' → mark last = mark last')
    (kept : ∀ last failure, (mark last failure).fault = failure.fault)
    (finished : ∀ state state' last last', state.Ahead lead state' → last.Ahead lead last' →
      (finish state last).Ahead lead (finish state' last'))
    (still : ∀ state, (start state).steps = state.steps)
    (still' : ∀ state last, (finish state last).steps = last.steps) :
    Ahead lead budget (Run.wrapped start mark finish inner)
      (Run.wrapped start mark finish inner') := by
  refine ⟨fun state state' ahead => ?_, fun state after left => ?_⟩
  · have ends := same.follows (start state) (start state') (started state state' ahead)
    rw [wrapped_apply]
    generalize inner (start state) = ending at ends
    generalize ended : inner' (start state') = ending' at ends
    cases ends with
    | value result inside =>
      rw [wrapped_apply, ended]
      exact .value result (finished _ _ _ _ ahead inside)
    | failure failure inside =>
      rw [wrapped_apply, ended]
      dsimp only
      rw [marked _ _ inside]
      exact .failure _ (finished _ _ _ _ ahead inside)
    | unfinished =>
      rw [wrapped_apply, ended]
      exact .unfinished
    | spent leads limit fault beyond =>
      refine .spent leads limit ((kept _ _).trans fault) fun after' left => ?_
      obtain ⟨last, inside, rfl⟩ := wrapped_leaves left
      rw [still']
      exact beyond last (ended ▸ inside)
  · obtain ⟨last, inside, rfl⟩ := wrapped_leaves left
    have grown := same.grows (start state) last inside
    rwa [still, ← still' state last] at grown

theorem stamped (span : Span) {inner inner' : Run Result} (same : Ahead lead budget inner inner') :
    Ahead lead budget (Run.stamped span inner) (Run.stamped span inner') := by
  rw [stamped_eq, stamped_eq]
  exact same.wrapped (fun _ _ ahead => ahead)
    (fun _ _ ahead => congrArg (Context.stamp · span) ahead.context)
    (fun last => last.context.fault_stamp span) (fun _ _ _ _ _ inside => inside) (fun _ => rfl)
    fun _ _ => rfl

theorem between (before after : Event) {inner inner' : Run Result}
    (same : Ahead lead budget inner inner') :
    Ahead lead budget (Run.between before after inner) (Run.between before after inner') := by
  rw [between_eq, between_eq]
  exact same.wrapped (fun _ _ ahead => ahead.record _ _) (fun _ _ _ => rfl) (fun _ _ => rfl)
    (fun _ _ _ _ _ inside => inside.record _ _) (fun _ => rfl) fun _ _ => rfl

theorem inFrame (name : String) (entry : Span) {inner inner' : Run Result}
    (same : Ahead lead budget inner inner') :
    Ahead lead budget (Run.inFrame name entry inner) (Run.inFrame name entry inner') := by
  rw [inFrame_eq, inFrame_eq]
  refine same.wrapped (fun state state' ahead => ?_) (fun _ _ _ => rfl) (fun _ _ => rfl)
    (fun state state' last last' ahead inside => ?_) (fun _ => rfl) fun _ _ => rfl
  · exact ⟨congrArg (Context.child · name entry) ahead.context, ahead.nextObject, ahead.steps,
      ahead.capped⟩
  · exact ⟨ahead.context, inside.nextObject, inside.steps, inside.capped⟩

/-! ### Checkpoints and calls -/

theorem descend (interpreter : Interpreter) {inner inner' : Run Result}
    (same : Ahead lead budget inner inner') :
    Ahead lead budget (interpreter.descend inner) (interpreter.descend inner') := by
  have refused (fault : Fault) : Ahead lead budget (Run.raise fault : Run Result)
      (Run.raise fault) := raise fault
  refine ⟨fun state state' ahead => ?_, fun state after left => ?_⟩
  · rw [Interpreter.descend_apply, Interpreter.descend_apply, ahead.context]
    split
    · exact (refused _).follows state state' ahead
    · exact same.follows state state' ahead
  · rw [Interpreter.descend_apply] at left
    split at left
    · exact (refused _).grows state after left
    · exact same.grows state after left

/-- The only place where the two may part. -/
theorem checkpoint (interpreter : Interpreter) :
    Ahead lead interpreter.limits.budget interpreter.checkpoint interpreter.checkpoint := by
  refine ⟨fun state state' ahead => ?_, fun state after left => ?_⟩
  · have counted := ahead.counted
    rw [Interpreter.checkpoint_apply, Interpreter.checkpoint_apply]
    split
    · exact (raise _).follows _ _ (ahead.record _ _)
    · cases limit : interpreter.limits.budget with
      | none => exact .value () counted
      | some most =>
        dsimp only
        have steps := counted.steps
        have capped := counted.capped
        by_cases beyond : most < state.counted.steps
        · by_cases beyond' : most < state'.counted.steps
          · rw [if_pos beyond, if_pos beyond']
            exact (raise _).follows _ _ (counted.record _ _)
          · rw [if_pos beyond, if_neg beyond']
            refine .spent (by omega) rfl rfl fun after' left => ?_
            cases left
            omega
        · rw [if_neg beyond, if_neg (by omega)]
          exact .value () counted
  · have grown : min state.steps State.maxSteps ≤ state.counted.steps := by
      show _ ≤ min (state.steps + 1) State.maxSteps
      omega
    rw [Interpreter.checkpoint_apply] at left
    repeat' split at left
    all_goals
      cases left
      first
        | exact Nat.min_le_left _ _
        | exact grown

/-- A lead is kept from one run to the next. -/
def sequential (lead : Nat) (budget : Option Nat) : Sequential where
  related := Ahead lead budget
  done := pure
  next := bind
  raise fault _ := raise fault
  newObject := newObject

theorem callFunction (interpreter : Interpreter) {evaluate : Expr → Run Value}
    (nodes : ∀ node, Ahead lead interpreter.limits.budget (evaluate node) (evaluate node))
    (function : Function) (args : List Value) (span : Span) :
    Ahead lead interpreter.limits.budget (interpreter.callFunction evaluate function args span)
      (interpreter.callFunction evaluate function args span) := by
  rw [Interpreter.callFunction_eq]
  refine between _ _ (bind (checkpoint interpreter) fun _ => descend interpreter ?_)
  unfold Interpreter.enterBody
  split
  · exact raise _
  · exact inFrame _ _ (bind ((sequential _ _).assignAll assign _ _) fun _ => nodes _)

end Run.Ahead

/-! ### Evaluation -/

/-- The parts of a node stay ahead if the nodes below it do. -/
def Walk.ahead (lead : Nat) (interpreter : Interpreter) (rounds : Nat)
    {evaluate : Expr → Run Value}
    (nodes : ∀ node, Run.Ahead lead interpreter.limits.budget (evaluate node) (evaluate node)) :
    Walk interpreter interpreter rounds rounds evaluate evaluate where
  toSequential := Run.Ahead.sequential lead interpreter.limits.budget
  forFinished _ _ := .record _
  whileFinished _ := .record _
  lookup := .lookup
  assign := .assign
  checkpoint := .checkpoint interpreter
  iterate turns := (Run.Ahead.sequential _ _).iterate .unfinished turns rounds
  nodes := nodes
  callFunction := .callFunction interpreter nodes

/-- An evaluation that has a lead keeps it until it goes beyond the budget. The induction is on the
fuel, which the two sides have alike. -/
theorem Expr.eval_ahead (lead : Nat) (interpreter : Interpreter) (fuel : Nat) (node : Expr) :
    Run.Ahead lead interpreter.limits.budget (eval interpreter fuel node)
      (eval interpreter fuel node) := by
  induction fuel generalizing node with
  | zero => exact .unfinished
  | succ fuel inductionHypothesis =>
    rw [eval_succ, visit_eq]
    exact .stamped _ (.bind (.enter node) fun _ =>
      (Walk.ahead lead interpreter fuel inductionHypothesis).evaluateNode node)

end Treewalk

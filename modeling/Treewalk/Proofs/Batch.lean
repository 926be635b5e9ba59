/-
This file proves that a host may evaluate lines one by one or all at once.

The lines are evaluated in one context, each as an evaluation of its own, up to the first that
fails; or they are the items of one array, which is evaluated as a whole. Every line of the array
finds the context that the lines before it have left, and so does every evaluation of a single line.
What differs is the step count: in the array it goes on from line to line, so that the array is
ahead of each single line by all the steps of the lines before (`Expr.eval_ahead`). Nothing reads
the count but the check of the budget, and an array adds nothing to a failure of one of its items.
-/
import Treewalk.Proofs.Accounts
import Treewalk.Proofs.Ahead
import Treewalk.Proofs.Sites

namespace Treewalk

variable {Result Other : Type}

namespace Interpreter

/-- Evaluates lines one after the other, each as an evaluation of its own, up to the first that
fails. -/
def evaluateLines (interpreter : Interpreter) (fuel : Nat) (lines : List Expr) :
    Run (List Value) :=
  Expr.evaluateAll (interpreter.evaluate fuel) lines

/-- How many steps such evaluations take together, that of the line that fails included. -/
def stepsOfLines (interpreter : Interpreter) (fuel : Nat) : List Expr → State → Nat
  | [], _ => 0
  | line :: rest, state =>
    match interpreter.evaluate fuel line state with
    | .value _ after => after.steps + stepsOfLines interpreter fuel rest after
    | .failure _ after => after.steps
    | .unfinished => 0

end Interpreter

/-! ### Lines that share a step count -/

/-- Whether a run that counts all steps together came to the same end as one that does not, or has
gone beyond the budget, in which case the steps are together beyond it. -/
inductive Outcome.KeepsUp (total : Nat) (budget : Option Nat) :
    Outcome Result → Outcome Result → Prop
  | value (result : Result) {after after' : State} (context : after.context = after'.context)
    (steps : after.steps = min total State.maxSteps) :
    KeepsUp total budget (.value result after) (.value result after')
  | failure {failure : Failure} {after after' : State} (context : after.context = after'.context)
    (located : failure.backtrace.isSome) :
    KeepsUp total budget (.failure failure after) (.failure failure after')
  | unfinished : KeepsUp total budget .unfinished .unfinished
  | spent {most : Nat} {failure : Failure} {after : State} {ending : Outcome Result}
    (limit : budget = some most) (fault : failure.fault = .budgetExceeded most)
    (beyond : ending ≠ .unfinished → most < total) :
    KeepsUp total budget (.failure failure after) ending

/-- What is done with the result of both runs and touches no state changes nothing. -/
theorem Outcome.KeepsUp.bind_pure {total : Nat} {budget : Option Nat} {run run' : Run Result}
    {state state' : State} (same : (run state).KeepsUp total budget (run' state'))
    (image : Result → Other) :
    ((run >>= fun result => pure (image result)) state).KeepsUp total budget
      ((run' >>= fun result => pure (image result)) state') := by
  rw [Run.bind_apply, Run.bind_apply]
  generalize run state = ending at same
  generalize ended : run' state' = ending' at same
  cases same with
  | value result context steps => exact .value (image result) context steps
  | failure context located => exact .failure context located
  | unfinished => exact .unfinished
  | spent limit fault beyond =>
    refine .spent limit fault fun finished => beyond fun stuck => finished ?_
    rw [stuck]

namespace Expr

/-- The items of an array, where some steps have been counted, keep up with the same lines on their
own. The induction is on the lines, and each of them adds its steps to what the rest starts with. -/
theorem evaluateAll_keepsUp (interpreter : Interpreter) (fuel : Nat) (lines : List Expr)
    {lead : Nat} {state state' : State} (context : state.context = state'.context)
    (nextObject : state.nextObject = state'.nextObject)
    (steps : state.steps = min lead State.maxSteps) :
    (evaluateAll (eval interpreter fuel) lines state).KeepsUp
      (lead + interpreter.stepsOfLines fuel lines state') interpreter.limits.budget
      (interpreter.evaluateLines fuel lines state') := by
  induction lines generalizing lead state state' with
  | nil => exact .value [] context steps
  | cons line rest inductionHypothesis =>
    have ahead : state.Ahead lead { state' with steps := 0 } :=
      ⟨context, nextObject, steps, Nat.zero_le _⟩
    have ends := (line.eval_ahead lead interpreter fuel).follows state _ ahead
    show ((line.eval interpreter fuel >>= fun value =>
        evaluateAll (eval interpreter fuel) rest >>= fun values => pure (value :: values))
        state).KeepsUp _ _
      ((interpreter.evaluate fuel line >>= fun value =>
        interpreter.evaluateLines fuel rest >>= fun values => pure (value :: values)) state')
    rw [Run.bind_apply, Run.bind_apply, Interpreter.stepsOfLines]
    generalize line.eval interpreter fuel state = ending at ends
    have alone : interpreter.evaluate fuel line state' =
        line.eval interpreter fuel { state' with steps := 0 } := rfl
    generalize found : line.eval interpreter fuel { state' with steps := 0 } = ending' at ends alone
    rw [alone]
    cases ends with
    | @value value middle middle' ahead =>
      dsimp only
      rw [← Nat.add_assoc]
      exact (inductionHypothesis ahead.context ahead.nextObject ahead.steps).bind_pure (value :: ·)
    | failure failure ahead => exact .failure ahead.context (located_of_failure found).2
    | unfinished => exact .unfinished
    | spent leads limit fault beyond =>
      refine .spent limit fault fun finished => ?_
      cases ending' with
      | value value middle =>
        have reached := beyond middle rfl
        dsimp only
        omega
      | failure failure middle =>
        have reached := beyond middle rfl
        dsimp only
        omega
      | unfinished => exact absurd rfl finished

end Expr

/-! ### Batches -/

namespace Interpreter

variable (interpreter : Interpreter) (fuel : Nat) (span : Span) (lines : List Expr) (state : State)

/-- What an array of lines comes to is what its items come to, with a new array for the values. -/
theorem evaluate_array :
    interpreter.evaluate (fuel + 1) (.array span lines) state =
      match Expr.evaluateAll (Expr.eval interpreter fuel) lines
        (State.record { state with steps := 0 } (.visited state.context (.array span lines))) with
      | .value values last => .value (.ofItems last.nextObject values)
          { last with nextObject := last.nextObject + 1 }
      | .failure failure last => .failure (last.context.stamp span failure) last
      | .unfinished => .unfinished := by
  show Expr.eval interpreter (fuel + 1) (.array span lines) { state with steps := 0 } = _
  rw [Expr.eval_succ, Expr.visit_apply]
  show (match (Expr.evaluateAll (Expr.eval interpreter fuel) lines >>= Run.newArray) _ with
    | .value result last => Outcome.value result last
    | .failure failure last => .failure (last.context.stamp span failure) last
    | .unfinished => .unfinished) = _
  rw [Run.bind_apply]
  cases Expr.evaluateAll (Expr.eval interpreter fuel) lines
    (State.record { state with steps := 0 } (.visited state.context (.array span lines))) <;> rfl

end Interpreter

/-- An array of lines comes to what its lines come to on their own, one after the other and each on
a new step count. If there is no budget, or if the lines together take no more steps than it has,
then the array of their values is the value, the bindings are the same, and the step count is the
sum of theirs, capped at the greatest machine word; or the array fails as the first line does that
fails, at the same place, with the same bindings. Without a budget the one comes to an end exactly
when the other does. And if the lines have their values within a budget that they go beyond
together, then the array fails for the budget. -/
theorem batch_agrees_with_lines (interpreter : Interpreter) (fuel : Nat) (span : Span)
    (lines : List Expr) (state : State) :
    let batch := interpreter.evaluate (fuel + 1) (.array span lines) state
    let ending := interpreter.evaluateLines fuel lines state
    let steps := interpreter.stepsOfLines fuel lines state
    ((∀ budget, interpreter.limits.budget = some budget → steps ≤ budget) →
      (∀ values after, ending = .value values after →
        ∃ object last, batch = .value (.ofItems object values) last ∧
          last.context = after.context ∧ last.steps = min steps State.maxSteps) ∧
      (∀ failure after, ending = .failure failure after →
        ∃ last, batch = .failure failure last ∧ last.context = after.context)) ∧
    (interpreter.limits.budget = none → (batch = .unfinished ↔ ending = .unfinished)) ∧
    ∀ budget, interpreter.limits.budget = some budget → budget < State.maxSteps →
      budget < steps → ∀ values after, ending = .value values after →
        ∃ failure last, batch = .failure failure last ∧ failure.fault = .budgetExceeded budget := by
  intro batch ending steps
  have whole : batch = _ := interpreter.evaluate_array fuel span lines state
  have keeps : (Expr.evaluateAll (Expr.eval interpreter fuel) lines
      (State.record { state with steps := 0 }
        (.visited state.context (.array span lines)))).KeepsUp (0 + steps)
      interpreter.limits.budget ending :=
    Expr.evaluateAll_keepsUp interpreter fuel lines rfl rfl rfl
  have within : ∀ budget, interpreter.limits.budget = some budget → batch.WithinBudget budget :=
    fun budget bounded => (Comparison.withinBudget bounded).eval_same (fuel + 1)
      (.array span lines) { state with steps := 0 } (Nat.zero_le _)
  rw [Nat.zero_add] at keeps
  generalize Expr.evaluateAll (Expr.eval interpreter fuel) lines _ = items at keeps whole
  generalize batch = batch at whole within ⊢
  generalize ending = ending at keeps ⊢
  subst whole
  cases keeps with
  | @value values last after context counted =>
    refine ⟨fun _ => ⟨?_, fun _ _ => nofun⟩, fun _ => ⟨nofun, nofun⟩, ?_⟩
    · rintro _ _ ⟨⟩
      exact ⟨last.nextObject, _, rfl, context, counted⟩
    · intro budget bounded small beyond
      have few : last.steps ≤ budget := within budget bounded
      omega
  | @failure failure last after context located =>
    refine ⟨fun _ => ⟨fun _ _ => nofun, ?_⟩, fun _ => ⟨nofun, nofun⟩, fun _ _ _ _ _ _ => nofun⟩
    rintro _ _ ⟨⟩
    exact ⟨last, congrArg (Outcome.failure · last) (last.context.stamp_of_located span located),
      context⟩
  | unfinished =>
    exact ⟨fun _ => ⟨fun _ _ => nofun, fun _ _ => nofun⟩, fun _ => ⟨fun _ => rfl, fun _ => rfl⟩,
      fun _ _ _ _ _ _ => nofun⟩
  | @spent most failure last _ limit fault beyond =>
    refine ⟨fun enough => ?_, fun none => ?_, fun budget bounded _ _ _ _ _ => ?_⟩
    · have few := enough most limit
      refine ⟨fun _ _ ended => ?_, fun _ _ ended => ?_⟩ <;>
      · have finished := beyond (by rw [ended]; nofun)
        omega
    · rw [none] at limit
      cases limit
    · rw [bounded] at limit
      obtain rfl := Option.some.inj limit
      exact ⟨_, last, rfl, (last.context.fault_stamp span failure).trans fault⟩

/-- Two loops that go round twice each, the second one after a name was bound in the first: a budget
of four is enough for both of them in one array, and a budget of three for each of them alone. -/
theorem two_loops_share_budget :
    let loop : Expr := .forLoop ⟨0, 25⟩ "i" (.number ⟨8, 9⟩ (.int 0)) (.number ⟨13, 14⟩ (.int 2))
      none (.assign ⟨18, 23⟩ "x" (.lookup ⟨22, 23⟩ "i"))
    let state : State := .initial (.root Context.programName)
    let ample : Interpreter := .ofLimits (.bounded 4 4)
    let scarce : Interpreter := .ofLimits (.bounded 4 3)
    (∃ values after object last,
      ample.evaluateLines 5 [loop, loop] state = .value values after ∧
      ample.evaluate 6 (.array ⟨0, 52⟩ [loop, loop]) state =
        .value (.ofItems object values) last ∧
      last.context = after.context ∧ last.steps = 4) ∧
    ∃ values after failure last,
      scarce.evaluateLines 5 [loop, loop] state = .value values after ∧
      scarce.evaluate 6 (.array ⟨0, 52⟩ [loop, loop]) state = .failure failure last ∧
      failure.fault = .budgetExceeded 3 := by
  intro loop state ample scarce
  constructor
  · have four : ample.stepsOfLines 5 [loop, loop] state = 4 := by decide +kernel
    have ended : (match ample.evaluateLines 5 [loop, loop] state with
        | .value _ _ => true
        | .failure _ _ | .unfinished => false) = true := by decide +kernel
    have agrees := (batch_agrees_with_lines ample 5 ⟨0, 52⟩ [loop, loop] state).1
      fun budget bounded => by
        obtain rfl := Option.some.inj bounded
        exact Nat.le_of_eq four
    cases ending : ample.evaluateLines 5 [loop, loop] state with
    | value values after =>
      obtain ⟨object, last, batch, context, steps⟩ := agrees.1 values after ending
      rw [four] at steps
      exact ⟨values, after, object, last, rfl, batch, context, steps⟩
    | failure | unfinished =>
      rw [ending] at ended
      cases ended
  · have four : scarce.stepsOfLines 5 [loop, loop] state = 4 := by decide +kernel
    have ended : (match scarce.evaluateLines 5 [loop, loop] state with
        | .value _ _ => true
        | .failure _ _ | .unfinished => false) = true := by decide +kernel
    have parts := (batch_agrees_with_lines scarce 5 ⟨0, 52⟩ [loop, loop] state).2.2 3 rfl
      (by decide) (by rw [four]; decide)
    cases ending : scarce.evaluateLines 5 [loop, loop] state with
    | value values after =>
      obtain ⟨failure, last, batch, fault⟩ := parts values after ending
      exact ⟨values, after, failure, last, rfl, batch, fault⟩
    | failure | unfinished =>
      rw [ending] at ended
      cases ended

end Treewalk

/-
This file proves that a call is isolated from its caller.

The body of a function runs in a frame above the frame of its caller, so the caller is in reach:
the frames below are there for backtraces, for the depth of calls and for the step count. The
content here is that no binding ever goes that way, in either direction. Two states whose current
frames are the same and whose frames below have nothing in common but their number cannot be told
apart by a program (`Comparison.isolation`). At the moment of a call even the current frames may
differ, since what the body starts in is the new frame alone.

Where the number of frames differs as well, the depth limit may stop one of two calls and not the
other one. That is all that can happen: as long as neither fails for the depth, the two go the same
way.
-/
import Treewalk.Proofs.Fuel
import Treewalk.Proofs.Reading

namespace Treewalk

variable {Result Other : Type}

/-! ### States that a program cannot tell apart -/

/-- Whether two states are the same to a program, apart from what depends on the current frame and
on the number of frames. -/
structure State.Alike (sameFrame sameDepth : Prop) (state other : State) : Prop where
  frame : sameFrame → state.context.frame = other.context.frame
  depth : sameDepth → state.context.depth = other.context.depth
  steps : state.steps = other.steps
  nextObject : state.nextObject = other.nextObject

/-- Whether two failures are the same apart from the frames that their backtraces list. -/
structure Failure.Alike (failure other : Failure) : Prop where
  fault : failure.fault = other.fault
  message : failure.message = other.message
  span : failure.span = other.span
  located : failure.backtrace.isSome = other.backtrace.isSome

theorem Failure.Alike.refl (failure : Failure) : failure.Alike failure := ⟨rfl, rfl, rfl, rfl⟩

theorem Failure.Alike.stamp {failure other : Failure} (alike : failure.Alike other)
    (context context' : Context) (span : Span) :
    (context.stamp span failure).Alike (context'.stamp span other) := by
  have located := alike.located
  cases known : failure.backtrace with
  | none =>
    cases known' : other.backtrace with
    | none =>
      refine ⟨by simp [alike.fault], by simp [alike.message], ?_, ?_⟩
      · simp [Context.stamp, known, known', alike.span]
      · simp [Context.stamp, known, known']
    | some backtrace => simp [known, known'] at located
  | some backtrace =>
    cases known' : other.backtrace with
    | none => simp [known, known'] at located
    | some backtrace' => simpa [Context.stamp, known, known'] using alike

/-- Whether a run failed because calls were nested too deeply. -/
def Outcome.Overflows (outcome : Outcome Result) : Prop :=
  ∃ failure last limit, outcome = .failure failure last ∧ failure.fault = .stackOverflow limit

/-- Whether two runs came to the same end. If the numbers of frames may differ, either of them may
have failed for that. -/
inductive Outcome.Matches (sameFrame sameDepth : Prop) : Outcome Result → Outcome Result → Prop
  | value (result : Result) {after after' : State}
    (alike : after.Alike sameFrame sameDepth after') :
    Matches sameFrame sameDepth (.value result after) (.value result after')
  | failure {failure failure' : Failure} {after after' : State} (same : failure.Alike failure')
    (alike : after.Alike sameFrame sameDepth after') :
    Matches sameFrame sameDepth (.failure failure after) (.failure failure' after')
  | overflow {outcome outcome' : Outcome Result} (differ : ¬ sameDepth)
    (overflows : outcome.Overflows ∨ outcome'.Overflows) :
    Matches sameFrame sameDepth outcome outcome'

/-- Whether two runs come to the same end from states that are alike, wherever the second one comes
to an end. -/
def Run.Matches (sameFrame sameDepth : Prop) (run run' : Run Result) : Prop :=
  ∀ state state' : State, state.Alike sameFrame sameDepth state' →
    run' state' = .unfinished ∨ (run state).Matches sameFrame sameDepth (run' state')

namespace Run.Matches

variable {sameFrame sameDepth : Prop}

theorem bind {first first' : Run Result} {next next' : Result → Run Other}
    (start : Matches sameFrame sameDepth first first')
    (rest : ∀ result, Matches sameFrame sameDepth (next result) (next' result)) :
    Matches sameFrame sameDepth (first >>= next) (first' >>= next') := by
  intro state state' alike
  rw [bind_apply, bind_apply]
  rcases start state state' alike with stuck | same
  · rw [stuck]
    exact .inl rfl
  · generalize first state = ending at same
    generalize first' state' = ending' at same
    cases same with
    | value result alike => exact rest result _ _ alike
    | failure same alike => exact .inr (.failure same alike)
    | overflow differ overflows =>
      refine .inr (.overflow differ ?_)
      rcases overflows with ⟨failure, last, limit, rfl, fault⟩ | ⟨failure, last, limit, rfl, fault⟩
      · exact .inl ⟨failure, last, limit, rfl, fault⟩
      · exact .inr ⟨failure, last, limit, rfl, fault⟩

/-- A wrapper may pass from one demand on the current frames to another one: what is done in front
makes the frames alike, and what is done behind gives back the frames that were there before. -/
theorem wrapped {inside : Prop} {inner inner' : Run Result}
    {start : State → State} {mark : State → Failure → Failure} {finish : State → State → State}
    (same : Matches inside sameDepth inner inner')
    (started : ∀ state state', state.Alike sameFrame sameDepth state' →
      (start state).Alike inside sameDepth (start state'))
    (marked : ∀ last last' failure failure', Failure.Alike failure failure' →
      (mark last failure).Alike (mark last' failure'))
    (kept : ∀ last failure, (mark last failure).fault = failure.fault)
    (finished : ∀ state state' last last', state.Alike sameFrame sameDepth state' →
      last.Alike inside sameDepth last' →
        (finish state last).Alike sameFrame sameDepth (finish state' last')) :
    Matches sameFrame sameDepth (Run.wrapped start mark finish inner)
      (Run.wrapped start mark finish inner') := by
  intro state state' alike
  rw [wrapped_apply, wrapped_apply]
  rcases same (start state) (start state') (started state state' alike) with stuck | same
  · rw [stuck]
    exact .inl rfl
  · generalize inner (start state) = ending at same
    generalize inner' (start state') = ending' at same
    cases same with
    | value result alike' => exact .inr (.value result (finished _ _ _ _ alike alike'))
    | failure same alike' =>
      exact .inr (.failure (marked _ _ _ _ same) (finished _ _ _ _ alike alike'))
    | overflow differ overflows =>
      refine .inr (.overflow differ ?_)
      rcases overflows with ⟨failure, last, limit, rfl, fault⟩ | ⟨failure, last, limit, rfl, fault⟩
      · exact .inl ⟨_, _, limit, rfl, (kept last failure).trans fault⟩
      · exact .inr ⟨_, _, limit, rfl, (kept last failure).trans fault⟩

theorem raise (fault : Fault) :
    Matches sameFrame sameDepth (Run.raise fault : Run Result) (Run.raise fault) :=
  fun _ _ alike =>
    .inr (.failure (.refl _) ⟨alike.frame, alike.depth, alike.steps, alike.nextObject⟩)

theorem checkpoint (interpreter : Interpreter) :
    Matches sameFrame sameDepth interpreter.checkpoint interpreter.checkpoint := by
  intro state state' alike
  have counted : state.counted.Alike sameFrame sameDepth state'.counted :=
    ⟨alike.frame, alike.depth, congrArg (fun steps => min (steps + 1) State.maxSteps) alike.steps,
      alike.nextObject⟩
  rw [Interpreter.checkpoint_apply, Interpreter.checkpoint_apply]
  split
  · exact raise _ _ _ ⟨alike.frame, alike.depth, alike.steps, alike.nextObject⟩
  · split
    · exact .inr (.value () counted)
    · rw [counted.steps]
      split
      · exact raise _ _ _ ⟨counted.frame, counted.depth, counted.steps, counted.nextObject⟩
      · exact .inr (.value () counted)

theorem descend (interpreter : Interpreter) {inner inner' : Run Result}
    (same : Matches sameFrame sameDepth inner inner') :
    Matches sameFrame sameDepth (interpreter.descend inner) (interpreter.descend inner') := by
  intro state state' alike
  have overflows : ∀ state, Outcome.Overflows
      (Run.raise (.stackOverflow interpreter.limits.maxDepth) state : Outcome Result) :=
    fun state => ⟨_, _, _, rfl, rfl⟩
  rw [Interpreter.descend_apply, Interpreter.descend_apply]
  by_cases sameNumber : sameDepth
  · rw [alike.depth sameNumber]
    split
    · exact raise _ _ _ alike
    · exact same _ _ alike
  · by_cases deep : interpreter.limits.maxDepth ≤ state.context.depth
    · rw [if_pos deep]
      exact .inr (.overflow sameNumber (.inl (overflows state)))
    · by_cases deep' : interpreter.limits.maxDepth ≤ state'.context.depth
      · rw [if_pos deep']
        exact .inr (.overflow sameNumber (.inr (overflows state')))
      · rw [if_neg deep, if_neg deep']
        exact same _ _ alike

/-- In a new frame the frames of the callers do not matter. -/
theorem inFrame (name : String) (entry : Span) {inner inner' : Run Result}
    (same : Matches True sameDepth inner inner') :
    Matches sameFrame sameDepth (Run.inFrame name entry inner) (Run.inFrame name entry inner') := by
  rw [inFrame_eq, inFrame_eq]
  refine same.wrapped (fun state state' alike => ?_) (fun _ _ _ _ same => same) (fun _ _ => rfl)
    fun state state' last last' alike alike' => ?_
  · exact ⟨fun _ => rfl, fun sameNumber => congrArg (· + 1) (alike.depth sameNumber), alike.steps,
      alike.nextObject⟩
  · exact ⟨alike.frame, alike.depth, alike'.steps, alike'.nextObject⟩

theorem between (before after : Event) {inner inner' : Run Result}
    (same : Matches sameFrame sameDepth inner inner') :
    Matches sameFrame sameDepth (Run.between before after inner)
      (Run.between before after inner') := by
  rw [between_eq, between_eq]
  refine same.wrapped (fun state state' alike => ?_) (fun _ _ _ _ same => same) (fun _ _ => rfl)
    fun state state' last last' _ alike' => ?_
  · exact ⟨alike.frame, alike.depth, alike.steps, alike.nextObject⟩
  · exact ⟨alike'.frame, alike'.depth, alike'.steps, alike'.nextObject⟩

theorem stamped (span : Span) {inner inner' : Run Result}
    (same : Matches sameFrame sameDepth inner inner') :
    Matches sameFrame sameDepth (Run.stamped span inner) (Run.stamped span inner') := by
  rw [stamped_eq, stamped_eq]
  exact same.wrapped (fun _ _ alike => alike)
    (fun last last' _ _ same => same.stamp last.context last'.context span)
    (fun last failure => last.context.fault_stamp span failure) fun _ _ _ _ _ alike => alike

end Run.Matches

/-- Two states compared that have the same current frame, but callers with nothing in common. -/
def Comparison.isolation (sameDepth : Prop) (interpreter : Interpreter) :
    Comparison interpreter interpreter where
  related := Run.Matches True sameDepth
  starve _ := fun _ _ _ => .inl rfl
  unfinished := fun _ _ _ => .inl rfl
  done result := fun _ _ alike => .inr (.value result alike)
  next := .bind
  raise fault _ := .raise fault
  record _ := fun _ _ alike =>
    .inr (.value () ⟨alike.frame, alike.depth, alike.steps, alike.nextObject⟩)
  enter _ := fun _ _ alike =>
    .inr (.value () ⟨alike.frame, alike.depth, alike.steps, alike.nextObject⟩)
  lookup name := by
    intro state state' alike
    have bound : state.context.get? name = state'.context.get? name := by
      unfold Context.get?
      rw [alike.frame trivial]
    rw [Run.lookup_apply, Run.lookup_apply, bound]
    cases state'.context.get? name with
    | none => exact Run.Matches.raise _ _ _ alike
    | some value => exact .inr (.value value alike)
  assign name value := by
    intro state state' alike
    refine .inr (.value () ⟨fun same => ?_, alike.depth, alike.steps, alike.nextObject⟩)
    show Frame.mk _ _ _ = Frame.mk _ _ _
    rw [alike.frame same]
  newObject := fun state state' alike => by
    show _ ∨ Outcome.Matches _ _ (.value state.nextObject _) (.value state'.nextObject _)
    rw [alike.nextObject]
    exact .inr (.value _ ⟨alike.frame, alike.depth, alike.steps, rfl⟩)
  checkpoint := .checkpoint interpreter
  descend inner := inner.descend interpreter
  stamped span inner := inner.stamped span
  between _ _ inner := inner.between _ _
  inFrame name entry inner := inner.inFrame name entry

/-! ### What a caller sees of a call -/

theorem State.Alike.symm {sameFrame sameDepth : Prop} {state other : State}
    (alike : state.Alike sameFrame sameDepth other) : other.Alike sameFrame sameDepth state :=
  ⟨fun same => (alike.frame same).symm, fun same => (alike.depth same).symm, alike.steps.symm,
    alike.nextObject.symm⟩

/-- Whether two ends are the same to those who called: the same value or the same failure, apart
from the frames that its backtrace lists, after the same number of steps. -/
inductive Outcome.SameToCaller : Outcome Result → Outcome Result → Prop
  | value (result : Result) {after after' : State} (steps : after.steps = after'.steps) :
    SameToCaller (.value result after) (.value result after')
  | failure {failure failure' : Failure} {after after' : State} (same : failure.Alike failure')
    (steps : after.steps = after'.steps) :
    SameToCaller (.failure failure after) (.failure failure' after')
  | unfinished : SameToCaller .unfinished .unfinished

/-- A run that matches itself goes the same way from states that are alike, unless it is stopped
for the depth of calls. -/
theorem Run.Matches.lockstep {sameFrame sameDepth : Prop} {run : Run Result}
    (same : Run.Matches sameFrame sameDepth run run) {state state' : State}
    (alike : state.Alike sameFrame sameDepth state') :
    (run state).SameToCaller (run state') ∨
      ¬ sameDepth ∧ ((run state).Overflows ∨ (run state').Overflows) := by
  have forward := same state state' alike
  have backward := same state' state alike.symm
  generalize run state = ending at forward backward
  generalize run state' = ending' at forward backward
  rcases forward with rfl | forward
  · rcases backward with rfl | backward
    · exact .inl .unfinished
    · cases backward with
      | overflow differ overflows => exact .inr ⟨differ, overflows.symm⟩
  · cases forward with
    | value result alike => exact .inl (.value result alike.steps)
    | failure same alike => exact .inl (.failure same alike.steps)
    | overflow differ overflows => exact .inr ⟨differ, overflows⟩

/-- Calls do not see the frame that they are made from. -/
theorem Interpreter.callFunction_matches (interpreter : Interpreter) (fuel : Nat)
    (function : Function) (args : List Value) (span : Span) (sameDepth : Prop) :
    Run.Matches False sameDepth
      (interpreter.callFunction (Expr.eval interpreter fuel) function args span)
      (interpreter.callFunction (Expr.eval interpreter fuel) function args span) := by
  rw [Interpreter.callFunction_eq]
  refine .between _ _ (.bind (.checkpoint interpreter) fun _ => .descend interpreter ?_)
  unfold Interpreter.enterBody
  split
  · exact .raise _
  · exact .inFrame _ _ (.bind ((Comparison.isolation sameDepth interpreter).assignAll _ _) fun _ =>
      (Comparison.isolation sameDepth interpreter).eval_same fuel function.body)

/-! ### What a call does to the context it is made from -/

/-- Whether a run leaves the context as it was, however it ends. -/
def Run.KeepsContext (run : Run Result) : Prop :=
  ∀ state after, (run state).after? = some after → after.context = state.context

namespace Run.KeepsContext

theorem raise (fault : Fault) : (Run.raise fault : Run Result).KeepsContext := by
  intro state after left
  cases left
  rfl

theorem ofExcept (result : Except Fault Result) : (Run.ofExcept result).KeepsContext := by
  intro state after left
  cases result <;> cases left <;> rfl

theorem bind {first : Run Result} {next : Result → Run Other} (start : first.KeepsContext)
    (rest : ∀ result, (next result).KeepsContext) : (first >>= next).KeepsContext := by
  intro state after left
  rcases bind_leaves left with ⟨result, middle, given, left⟩ | ⟨failure, failed⟩
  · exact (rest result middle after left).trans
      (start state middle (congrArg Outcome.after? given))
  · exact start state after (congrArg Outcome.after? failed)

theorem between (before after : Event) {inner : Run Result} (keeps : inner.KeepsContext) :
    (Run.between before after inner).KeepsContext := by
  intro state last left
  rw [between_eq] at left
  obtain ⟨middle, inside, rfl⟩ := wrapped_leaves left
  exact keeps (state.record before) middle inside

/-- A frame is closed whatever happened in it. -/
theorem inFrame (name : String) (entry : Span) (inner : Run Result) :
    (Run.inFrame name entry inner).KeepsContext := by
  intro state last left
  rw [inFrame_eq] at left
  obtain ⟨middle, -, rfl⟩ := wrapped_leaves left
  rfl

theorem checkpoint (interpreter : Interpreter) : interpreter.checkpoint.KeepsContext := by
  intro state after left
  rw [Interpreter.checkpoint_apply] at left
  repeat' split at left
  all_goals
    cases left
    rfl

theorem descend (interpreter : Interpreter) {inner : Run Result} (keeps : inner.KeepsContext) :
    (interpreter.descend inner).KeepsContext := by
  intro state after left
  rw [Interpreter.descend_apply] at left
  split at left
  · exact raise _ state after left
  · exact keeps state after left

/-- A call gives back the context it was made from, whatever its body does. -/
theorem callFunction (interpreter : Interpreter) (evaluate : Expr → Run Value)
    (function : Function) (args : List Value) (span : Span) :
    (interpreter.callFunction evaluate function args span).KeepsContext := by
  rw [Interpreter.callFunction_eq]
  refine between _ _ (bind (checkpoint interpreter) fun _ => descend interpreter ?_)
  unfold Interpreter.enterBody
  split
  · exact raise _
  · exact inFrame _ _ _

/-- What is left of a context was there when a part of the run that keeps it began. -/
theorem of_bind {first : Run Result} {next : Result → Run Other}
    (rest : ∀ result, (next result).KeepsContext) {state after : State}
    (left : ((first >>= next) state).after? = some after) :
    ∃ middle, (first state).after? = some middle ∧ after.context = middle.context := by
  rcases bind_leaves left with ⟨result, middle, given, left⟩ | ⟨failure, failed⟩
  · exact ⟨middle, congrArg Outcome.after? given, rest result middle after left⟩
  · exact ⟨after, congrArg Outcome.after? failed, rfl⟩

/-- The same of two parts of a run, one after the other. -/
theorem of_bind_bind {Last : Type} {first : Run Result} {second : Run Other}
    {next : Result → Other → Run Last} (rest : ∀ result other, (next result other).KeepsContext)
    {state after : State}
    (left : ((first >>= fun result => second >>= next result) state).after? = some after) :
    ∃ middle, ((first >>= fun _ => second) state).after? = some middle ∧
      after.context = middle.context := by
  rw [bind_apply first fun _ => second]
  rcases bind_leaves left with ⟨result, middle, given, left⟩ | ⟨failure, failed⟩
  · rw [given]
    exact of_bind (rest result) left
  · rw [failed]
    exact ⟨after, rfl, rfl⟩

end Run.KeepsContext

/-- The checkpoint of a call that has just been entered leaves the context of the caller. -/
theorem Interpreter.context_of_checkpoint {interpreter : Interpreter} {caller passed : State}
    {event : Event} (checked : interpreter.checkpoint (caller.record event) = .value () passed) :
    passed.context = caller.context :=
  Run.KeepsContext.checkpoint interpreter (caller.record event) passed
    (congrArg Outcome.after? checked)

/-! ### Where a body starts -/

/-- Whether an interpreter lets a host's call of a function get as far as its body. -/
structure Interpreter.Admits (interpreter : Interpreter) (function : Function) (args : List Value)
    (context : Context) : Prop where
  uninterrupted : interpreter.interrupted = false
  budget : interpreter.limits.budget ≠ some 0
  shallow : context.depth < interpreter.limits.maxDepth
  arity : args.length = function.arity

/-- Why an interpreter does not let a host's call of a function get as far as its body, if it does
not. Of several reasons the first one counts. -/
def Interpreter.refusal? (interpreter : Interpreter) (function : Function) (args : List Value)
    (context : Context) : Option Fault :=
  if interpreter.interrupted then some .interrupted
  else if interpreter.limits.budget = some 0 then some (.budgetExceeded 0)
  else if interpreter.limits.maxDepth ≤ context.depth then
    some (.stackOverflow interpreter.limits.maxDepth)
  else if args.length ≠ function.arity then
    some (.arityMismatch function.displayName function.arity args.length)
  else none

theorem Interpreter.refusal?_eq_none_iff {interpreter : Interpreter} {function : Function}
    {args : List Value} {context : Context} :
    interpreter.refusal? function args context = none ↔
      interpreter.Admits function args context := by
  unfold refusal?
  constructor
  · intro none
    split at none
    · cases none
    split at none
    · cases none
    split at none
    · cases none
    split at none
    · cases none
    · rename_i uninterrupted budget shallow arity
      exact ⟨eq_false_of_ne_true uninterrupted, budget, Nat.not_le.mp shallow,
        Decidable.not_not.mp arity⟩
  · rintro ⟨uninterrupted, budget, shallow, arity⟩
    rw [uninterrupted, if_neg Bool.false_ne_true, if_neg budget, if_neg (Nat.not_le.mpr shallow),
      if_neg (not_not_intro arity)]

/-- Whether a state is one for a body to start in: above the frames of the caller is one that binds
the parameters and nothing else, each of them to the last argument that stands beside it. -/
structure State.StartsBody (start : State) (function : Function) (args : List Value) (span : Span)
    (caller : Context) : Prop where
  name : start.context.frame.name = function.displayName
  entry : start.context.frame.entry = some span
  callers : start.context.callers = caller.frames
  bindings : ∀ name, start.context.get? name = (function.params.zip args).reverse.lookup name

namespace Interpreter

variable (interpreter : Interpreter) (function : Function) (args : List Value) (span : Span)

/-- The first checkpoint of an evaluation is passed, unless it may not take a step at all. -/
theorem checkpoint_first (uninterrupted : interpreter.interrupted = false)
    (budget : interpreter.limits.budget ≠ some 0) {state : State} (first : state.steps = 0) :
    interpreter.checkpoint state = .value () state.counted := by
  have count : state.counted.steps = 1 := by
    show min (state.steps + 1) State.maxSteps = 1
    rw [first]
    decide
  rw [checkpoint_apply, uninterrupted, if_neg Bool.false_ne_true]
  cases known : interpreter.limits.budget with
  | none => rfl
  | some most =>
    have positive : most ≠ 0 := fun zero => budget (known.trans (congrArg some zero))
    dsimp only
    rw [count, if_neg (by omega)]

/-- Where a body starts depends on the call alone, not on how nodes are evaluated. -/
theorem enterBody_start (arity : args.length = function.arity) (state : State) :
    ∃ start : State, start.StartsBody function args span state.context ∧
      ∀ evaluate, enterBody evaluate function args span state =
        Run.wrapped (fun _ => start) (fun _ failure => failure)
          (fun _ last => { last with context := state.context }) (evaluate function.body)
          state := by
  obtain ⟨journal, bound⟩ := Run.assignAll_apply function.params args
    { state with context := state.context.child function.displayName span }
  refine ⟨{ state with
    context := (state.context.child function.displayName span).setAll function.params args
    journal }, ⟨?_, ?_, ?_, fun name => ?_⟩, fun evaluate => ?_⟩
  · exact Context.name_setAll _ _ _
  · exact Context.entry_setAll _ _ _
  · exact Context.callers_setAll _ _ _
  · rw [Context.get?_setAll]
    exact Option.or_none
  · unfold enterBody
    rw [if_neg (not_not_intro arity), Run.inFrame_eq, Run.wrapped_apply, Run.bind_apply, bound,
      Run.wrapped_apply]

/-- A call that is let in ends as its body does, and nothing else is done. -/
theorem execute_admitted (fuel : Nat) {state : State}
    (admits : interpreter.Admits function args state.context) :
    ∃ start : State, start.StartsBody function args span state.context ∧
      interpreter.execute fuel function args span state =
        Run.wrapped (fun _ => start) (fun _ failure => failure)
          (fun _ last => State.record { last with context := state.context }
            (.callLeft function.displayName args.length))
          (function.body.eval interpreter fuel) state := by
  let entered : State := State.record { state with steps := 0 }
    (.callEntered function.displayName args.length)
  obtain ⟨start, starts, same⟩ := enterBody_start function args span admits.arity entered.counted
  refine ⟨start, starts, ?_⟩
  have called : (interpreter.checkpoint >>= fun _ => interpreter.descend
      (enterBody (Expr.eval interpreter fuel) function args span)) entered =
      enterBody (Expr.eval interpreter fuel) function args span entered.counted := by
    rw [Run.bind_apply, checkpoint_first interpreter admits.uninterrupted admits.budget rfl]
    dsimp only
    rw [descend_apply]
    exact if_neg (Nat.not_le.mpr admits.shallow)
  show interpreter.callFunction (Expr.eval interpreter fuel) function args span
    { state with steps := 0 } = _
  rw [callFunction_eq, Run.between_eq, Run.wrapped_apply, called, same, Run.wrapped_apply,
    Run.wrapped_apply]
  cases function.body.eval interpreter fuel start <;> rfl

/-- A call that is not let in fails with the first reason, and whatever evaluates its body is not
asked. -/
theorem callFunction_refusal (state : State) {fault : Fault}
    (refused : interpreter.refusal? function args state.context = some fault) :
    ∃ after, ∀ evaluate, interpreter.callFunction evaluate function args span
      { state with steps := 0 } = .failure (.ofFault fault) after := by
  let entered : State := State.record { state with steps := 0 }
    (.callEntered function.displayName args.length)
  have failed : ∀ last, (∀ evaluate, (interpreter.checkpoint >>= fun _ =>
        interpreter.descend (enterBody evaluate function args span)) entered =
          .failure (.ofFault fault) last) →
      ∃ after, ∀ evaluate, interpreter.callFunction evaluate function args span
        { state with steps := 0 } = .failure (.ofFault fault) after := by
    intro last same
    refine ⟨last.record (.callLeft function.displayName args.length), fun evaluate => ?_⟩
    rw [callFunction_eq, Run.between_eq, Run.wrapped_apply, same evaluate]
  unfold refusal? at refused
  split at refused
  · rename_i interrupted
    obtain rfl := Option.some.inj refused
    refine failed ((entered.record (.gaveIn 0)).record (.raised .interrupted)) fun evaluate => ?_
    rw [Run.bind_apply, checkpoint_apply, interrupted]
    rfl
  rename_i uninterrupted
  split at refused
  · rename_i budget
    obtain rfl := Option.some.inj refused
    have spent : 0 < entered.counted.steps := by
      show 0 < min (0 + 1) State.maxSteps
      decide
    refine failed
      ((entered.counted.record (.budgetSpent 0)).record (.raised (.budgetExceeded 0)))
      fun evaluate => ?_
    rw [Run.bind_apply, checkpoint_apply, if_neg uninterrupted, budget]
    dsimp only
    rw [if_pos spent]
    rfl
  rename_i budget
  have passed : interpreter.checkpoint entered = .value () entered.counted :=
    checkpoint_first interpreter (eq_false_of_ne_true uninterrupted) budget rfl
  refine failed (entered.counted.record (.raised fault)) fun evaluate => ?_
  rw [Run.bind_apply, passed]
  dsimp only
  rw [descend_apply]
  split at refused
  · rename_i deep
    obtain rfl := Option.some.inj refused
    exact if_pos deep
  rename_i shallow
  split at refused
  · rename_i arity
    obtain rfl := Option.some.inj refused
    rw [enterBody, if_pos arity]
    exact if_neg shallow
  · cases refused

/-- A call that is not let in fails, and whatever evaluates its body is not asked. -/
theorem callFunction_refused (state : State)
    (refused : ¬ interpreter.Admits function args state.context) :
    ∃ fault after, ∀ evaluate, interpreter.callFunction evaluate function args span
      { state with steps := 0 } = .failure (.ofFault fault) after := by
  cases reason : interpreter.refusal? function args state.context with
  | none => exact absurd (refusal?_eq_none_iff.mp reason) refused
  | some fault => exact ⟨fault, callFunction_refusal interpreter function args span state reason⟩

end Interpreter

/-! ### Isolation -/

theorem Run.after?_stamped (span : Span) (inner : Run Result) (state : State) :
    (Run.stamped span inner state).after? = (inner state).after? := by
  unfold Run.stamped
  cases inner state <;> rfl

/-- The visit of a node leaves what the node leaves. -/
theorem Expr.after?_eval (interpreter : Interpreter) (fuel : Nat) (node : Expr) (state : State) :
    (eval interpreter (fuel + 1) node state).after? =
      (evaluateNode interpreter fuel (eval interpreter fuel) node
        (state.record (.visited state.context node))).after? := by
  rw [eval_succ, visit_eq, Run.after?_stamped]
  rfl

/-- A call from a node changes the context it is made from by what its callee and its arguments do,
and by nothing else. -/
theorem Expr.context_call (interpreter : Interpreter) (fuel : Nat) (span : Span) (callee : Expr)
    (args : List Expr) {state after : State}
    (left : (eval interpreter (fuel + 1) (.call span callee args) state).after? = some after) :
    ∃ middle, ((eval interpreter fuel callee >>= fun _ =>
        evaluateAll (eval interpreter fuel) args)
          (state.record (.visited state.context (.call span callee args)))).after? = some middle ∧
      after.context = middle.context := by
  rw [after?_eval] at left
  refine Run.KeepsContext.of_bind_bind (fun callee args => ?_) left
  cases callee with
  | function function => exact .callFunction _ _ _ _ _
  | number | string | array | void => exact .raise _

/-- A host's call of a function with arguments from two contexts, with the next array object having
the same number, comes to the same value or failure after the same number of steps, unless the
contexts differ in depth and one of the calls goes too deep; with any other number it comes to the
same, read as a tree; it leaves its caller as it was; and it does what the body does, from a state
that binds the parameters alone. And a call from a node changes the context that it is made from by
what its callee and its arguments do, never by what the body does. -/
theorem calls_are_isolated (interpreter : Interpreter) (fuel : Nat) (function : Function)
    (args : List Value) (span : Span) (state : State) :
    (∀ (caller : Context) (steps : Nat) (journal : Journal),
      let ending := interpreter.execute fuel function args span state
      let ending' := interpreter.execute fuel function args span
        ⟨caller, steps, state.nextObject, journal⟩
      (state.context.depth = caller.depth → ending.SameToCaller ending') ∧
        (ending.SameToCaller ending' ∨ ending.Overflows ∨ ending'.Overflows)) ∧
    (∀ next, (interpreter.execute fuel function args span { state with nextObject := next }).read
        Value.tree =
      (interpreter.execute fuel function args span state).read Value.tree) ∧
    (∀ after, (interpreter.execute fuel function args span state).after? = some after →
      after.context = state.context) ∧
    (interpreter.Admits function args state.context →
      ∃ start : State, start.StartsBody function args span state.context ∧
        interpreter.execute fuel function args span state =
          Run.wrapped (fun _ => start) (fun _ failure => failure)
            (fun _ last => State.record { last with context := state.context }
              (.callLeft function.displayName args.length))
            (function.body.eval interpreter fuel) state) ∧
    (¬ interpreter.Admits function args state.context →
      ∃ fault after, ∀ fuel,
        interpreter.execute fuel function args span state = .failure (.ofFault fault) after) ∧
    ∀ (callee : Expr) (nodes : List Expr) (after : State),
      (Expr.eval interpreter (fuel + 1) (.call span callee nodes) state).after? = some after →
        ∃ middle, ((Expr.eval interpreter fuel callee >>= fun _ =>
            Expr.evaluateAll (Expr.eval interpreter fuel) nodes)
              (state.record (.visited state.context (.call span callee nodes)))).after? =
            some middle ∧
          after.context = middle.context := by
  refine ⟨fun caller steps journal => ?_, fun next => ?_, fun after left => ?_, fun admits => ?_,
    fun refused => ?_, fun callee nodes after left => ?_⟩
  · have alike : State.Alike False (state.context.depth = caller.depth)
        { state with steps := 0 } ⟨caller, 0, state.nextObject, journal⟩ :=
      ⟨False.elim, id, rfl, rfl⟩
    have same := (interpreter.callFunction_matches fuel function args span _).lockstep alike
    refine ⟨fun sameDepth => ?_, ?_⟩
    · exact same.resolve_right fun differ => differ.1 sameDepth
    · exact same.imp_right And.right
  · have reads := Run.Reads.callFunction interpreter (Expr.eval_reads interpreter fuel) function
      args span
    exact (reads ⟨state.context, 0, next, state.journal⟩).symm.trans
      (reads { state with steps := 0 })
  · exact Run.KeepsContext.callFunction _ _ function args span { state with steps := 0 } after left
  · exact interpreter.execute_admitted function args span fuel admits
  · obtain ⟨fault, after, same⟩ := interpreter.callFunction_refused function args span state refused
    exact ⟨fault, after, fun fuel => same _⟩
  · exact Expr.context_call interpreter fuel span callee nodes left

/-- A function that gives back its parameter does the same for two programs, one of which binds
that name to something else. -/
theorem call_from_two_programs :
    let interpreter : Interpreter := .ofLimits (.bounded 1 1)
    let function : Function := ⟨some "f", ["a"], 0, .lookup ⟨9, 10⟩ "a"⟩
    let state : State := .initial (.root "one")
    let other : State := ⟨(Context.root "two").set "a" (.int 7), 5, 0, []⟩
    (interpreter.execute 2 function [.int 1] ⟨12, 16⟩ state).SameToCaller
        (interpreter.execute 2 function [.int 1] ⟨12, 16⟩ other) ∧
      ∃ start : State, start.StartsBody function [.int 1] ⟨12, 16⟩ state.context := by
  intro interpreter function state other
  have isolated := calls_are_isolated interpreter 2 function [.int 1] ⟨12, 16⟩ state
  refine ⟨(isolated.1 other.context 5 []).1 rfl, ?_⟩
  obtain ⟨start, starts, _⟩ := isolated.2.2.2.1 ⟨rfl, by decide, by decide, rfl⟩
  exact ⟨start, starts⟩

end Treewalk

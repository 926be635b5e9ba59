/-
This file proves that an interrupted evaluation is an evaluation with a budget of nothing.

Both of them stop at the first checkpoint that they come to. What is behind a checkpoint therefore
does not matter, and neither does how deeply calls may be nested, which is looked at only there. As
long as no checkpoint has come the two are one evaluation, state by state; and when it comes, both
fail in the same context, so that both are told at the same place. All that tells them apart is that
the one with a budget has counted a step.

An evaluation that comes to its end without a checkpoint is the same under all limits, since tighter
ones only cut it short (`Interpreter.evaluate_outlasts`) and the tightest did not.
-/
import Treewalk.Proofs.Budget
import Treewalk.Proofs.Limits

namespace Treewalk

variable {Result Other : Type}

/-! ### Runs that stop at the same checkpoint -/

namespace Outcome

/-- Whether two runs have ended alike: in the same way, without a step and not at a limit, or one of
them for an interrupt and the other one for a budget of nothing, at the same place and in the same
context. -/
inductive StopsWith : Outcome Result → Outcome Result → Prop
  | value (result : Result) {after : State} (still : after.steps = 0) :
    StopsWith (value result after) (value result after)
  | failure {reason : Failure} {after : State} (still : after.steps = 0)
    (program : reason.isLimit = false) : StopsWith (failure reason after) (failure reason after)
  | unfinished : StopsWith unfinished unfinished
  | stopped {reason reason' : Failure} {after after' : State} (still : after.steps = 0)
    (fault : reason.fault = .interrupted) (fault' : reason'.fault = .budgetExceeded 0)
    (span : reason.span = reason'.span) (backtrace : reason.backtrace = reason'.backtrace)
    (context : after.context = after'.context) :
    StopsWith (failure reason after) (failure reason' after')

end Outcome

/-- Whether two runs end alike wherever no step was counted. -/
def Run.StopsWith (run run' : Run Result) : Prop :=
  ∀ state, state.steps = 0 → (run state).StopsWith (run' state)

namespace Run.StopsWith

theorem pure (result : Result) : StopsWith (Pure.pure result) (Pure.pure result) :=
  fun _ still => .value result still

theorem unfinished : StopsWith (Run.unfinished : Run Result) Run.unfinished :=
  fun _ _ => .unfinished

theorem raise {fault : Fault} (program : fault.isLimit = false) :
    StopsWith (Run.raise fault : Run Result) (Run.raise fault) :=
  fun _ still => .failure still program

theorem lookup (name : String) : StopsWith (Run.lookup name) (Run.lookup name) := by
  intro state still
  rw [lookup_apply]
  cases state.context.get? name with
  | none => exact raise rfl state still
  | some value => exact .value value still

theorem bind {first first' : Run Result} {next next' : Result → Run Other}
    (start : first.StopsWith first') (rest : ∀ result, (next result).StopsWith (next' result)) :
    (first >>= next).StopsWith (first' >>= next') := by
  intro state still
  have alike := start state still
  rw [bind_apply, bind_apply]
  generalize first state = ending, first' state = ending' at alike
  cases alike with
  | value result still => exact rest result _ still
  | failure still program => exact .failure still program
  | unfinished => exact .unfinished
  | stopped still fault fault' span backtrace context =>
    exact .stopped still fault fault' span backtrace context

/-- In the same context the two failures are stamped alike. -/
theorem stamped (span : Span) {run run' : Run Result} (inner : run.StopsWith run') :
    (Run.stamped span run).StopsWith (Run.stamped span run') := by
  intro state still
  have alike := inner state still
  rw [stamped_eq, stamped_eq, wrapped_apply, wrapped_apply, id]
  generalize run state = ending, run' state = ending' at alike
  cases alike with
  | value result still => exact .value result still
  | failure still program =>
    refine .failure still ?_
    rw [Failure.isLimit, Context.fault_stamp]
    exact program
  | unfinished => exact .unfinished
  | @stopped reason reason' after after' still fault fault' span' backtrace context =>
    have places :
        (after.context.stamp span reason).span = (after'.context.stamp span reason').span ∧
        (after.context.stamp span reason).backtrace =
          (after'.context.stamp span reason').backtrace := by
      unfold Context.stamp
      rw [context, span', backtrace]
      cases reason'.backtrace with
      | none => exact ⟨rfl, rfl⟩
      | some known => exact ⟨span', backtrace⟩
    refine .stopped still ?_ ?_ places.1 places.2 context
    · exact (after.context.fault_stamp span reason).trans fault
    · exact (after'.context.fault_stamp span reason').trans fault'

/-- Runs that stop alike, one after the other, stop alike. -/
def sequential : Sequential where
  related := StopsWith
  done := pure
  next := bind
  raise _ := raise
  newObject := fun _ still => .value _ still

variable (limits : Limits) {tight : Limits} (spent : tight.budget = some 0)

include spent

/-- Neither of the two gets past a checkpoint. -/
theorem checkpoint_fails (state : State) (still : state.steps = 0) :
    ∃ after after', (⟨limits, true⟩ : Interpreter).checkpoint state =
        .failure (.ofFault .interrupted) after ∧
      (Interpreter.ofLimits tight).checkpoint state =
        .failure (.ofFault (.budgetExceeded 0)) after' ∧
      after.steps = 0 ∧ after.context = after'.context := by
  have beyond : 0 < state.counted.steps := by
    show 0 < min (state.steps + 1) State.maxSteps
    rw [still]
    decide
  refine ⟨(state.record (.gaveIn state.steps)).record (.raised .interrupted),
    (state.counted.record (.budgetSpent 0)).record (.raised (.budgetExceeded 0)), rfl, ?_, still,
    rfl⟩
  rw [checkpoint_ofLimits, spent]
  exact if_pos beyond

theorem checkpoint :
    (⟨limits, true⟩ : Interpreter).checkpoint.StopsWith
      (Interpreter.ofLimits tight).checkpoint := by
  intro state still
  obtain ⟨after, after', failed, failed', still', same⟩ :=
    checkpoint_fails limits spent state still
  rw [failed, failed']
  exact .stopped still' rfl rfl rfl rfl same

/-- The two may allow calls to be nested differently, and go on differently in a body. -/
theorem callFunction {evaluate evaluate' : Expr → Run Value} (function : Function)
    (args : List Value) (span : Span) :
    ((⟨limits, true⟩ : Interpreter).callFunction evaluate function args span).StopsWith
      ((Interpreter.ofLimits tight).callFunction evaluate' function args span) := by
  intro state still
  obtain ⟨after, after', failed, failed', still', same⟩ := checkpoint_fails limits spent
    (state.record (.callEntered function.displayName args.length)) still
  rw [Interpreter.callFunction_eq, Interpreter.callFunction_eq, between_eq, between_eq,
    wrapped_apply, wrapped_apply, bind_apply, bind_apply, failed, failed']
  exact .stopped still' rfl rfl rfl rfl same

end Run.StopsWith

/-! ### Evaluation -/

section

variable (limits : Limits) {tight : Limits} (spent : tight.budget = some 0)

include spent

/-- The parts of a node stop alike if the nodes below it do. -/
def Walk.interrupt (fuel : Nat)
    (nodes : ∀ node : Expr, (node.eval ⟨limits, true⟩ fuel).StopsWith
      (node.eval (.ofLimits tight) fuel)) :
    Walk ⟨limits, true⟩ (.ofLimits tight) fuel fuel (Expr.eval ⟨limits, true⟩ fuel)
      (Expr.eval (.ofLimits tight) fuel) where
  toSequential := Run.StopsWith.sequential
  forFinished _ _ := fun _ still => .value () still
  whileFinished _ := fun _ still => .value () still
  lookup := .lookup
  assign _ _ := fun _ still => .value () still
  checkpoint := .checkpoint limits spent
  iterate turns := Run.StopsWith.sequential.iterate .unfinished turns fuel
  nodes := nodes
  callFunction := .callFunction limits spent

/-- The induction is on the fuel, which the two have alike. -/
theorem Expr.eval_stopsWith (fuel : Nat) (node : Expr) :
    (node.eval ⟨limits, true⟩ fuel).StopsWith (node.eval (.ofLimits tight) fuel) := by
  induction fuel generalizing node with
  | zero => exact .unfinished
  | succ fuel inductionHypothesis =>
    rw [eval_succ, eval_succ, visit_eq, visit_eq]
    exact .stamped _ (.bind (fun _ still => .value () still) fun _ =>
      (Walk.interrupt limits spent fuel inductionHypothesis).evaluateNode node)

end

namespace Outcome.StopsWith

variable {asked spent : Outcome Result} (alike : asked.StopsWith spent)

include alike

theorem unfinished_iff : asked = .unfinished ↔ spent = .unfinished := by
  cases alike <;> simp

theorem fault_iff : asked.fault? = some .interrupted ↔ spent.fault? = some (.budgetExceeded 0) := by
  cases alike with
  | value | unfinished => exact ⟨nofun, nofun⟩
  | @failure reason _ _ program =>
    have other {fault : Fault} (limit : fault.isLimit = true) :
        some reason.fault ≠ some fault := fun same => by
      rw [← Option.some.inj same, ← Failure.isLimit, program] at limit
      cases limit
    exact ⟨fun same => absurd same (other rfl), fun same => absurd same (other rfl)⟩
  | stopped _ fault fault' =>
    exact ⟨fun _ => congrArg some fault', fun _ => congrArg some fault⟩

theorem place_eq : asked.place? = spent.place? := by
  cases alike with
  | value | failure | unfinished => rfl
  | stopped _ _ _ span backtrace => exact congrArg some (Prod.ext span backtrace)

theorem context_eq : asked.after?.map State.context = spent.after?.map State.context := by
  cases alike with
  | value | failure | unfinished => rfl
  | stopped _ _ _ _ _ context => exact congrArg some context

theorem steps_eq (after : State) (left : asked.after? = some after) : after.steps = 0 := by
  cases alike with
  | value _ still | failure still | stopped still =>
    cases left
    exact still
  | unfinished => cases left

/-- Those that were not interrupted are one, and have not come to any limit. -/
theorem eq_of_ne (other : asked.fault? ≠ some .interrupted) :
    asked = spent ∧ ∀ fault, spent.fault? = some fault → fault.isLimit = false := by
  cases alike with
  | value | unfinished => exact ⟨rfl, fun _ known => nomatch known⟩
  | failure _ program =>
    refine ⟨rfl, fun fault known => ?_⟩
    rw [← Option.some.inj known]
    exact program
  | stopped _ fault => exact absurd (congrArg some fault) other

end Outcome.StopsWith

/-- What comes to its end on a budget of nothing, and not at a limit, comes to the same end on any
budget. -/
theorem Interpreter.evaluate_of_budget_zero (limits : Limits) (fuel : Nat) (program : Expr)
    (state : State) {ending : Outcome Value} (finished : ending ≠ .unfinished)
    (ended : (ofLimits (.bounded limits.maxDepth 0)).evaluate fuel program state = ending)
    (within : ∀ fault, ending.fault? = some fault → fault.isLimit = false) :
    (ofLimits limits).evaluate fuel program state = ending := by
  have tighter : (Limits.bounded limits.maxDepth 0).Within limits :=
    ⟨Nat.le_refl _, fun budget _ => ⟨0, rfl, Nat.zero_le budget⟩⟩
  subst ended
  exact (evaluate_outlasts tighter (Nat.le_refl fuel) program).apply_eq finished within

/-- An evaluation that the host has asked to stop, under any limits, and one that nobody has asked
to stop, on a budget of nothing and with any limit of depth, both come to an end on all fuel from
some amount on. The first one is interrupted exactly when the second one goes beyond its budget, and
then they fail at the same place; otherwise they have the same value or the same failure. In any
case they leave the same context, and the first one has counted no step. If it was not interrupted,
then to ask it to stop made no difference: it comes to the same value or failure, in the same state,
under all limits. -/
theorem interrupt_is_budget_of_nothing (limits : Limits) (maxDepth : Nat) (program : Expr)
    (state : State) :
    ∃ asked spent : Outcome Value, asked ≠ .unfinished ∧ spent ≠ .unfinished ∧
      (∃ enough, ∀ fuel, enough ≤ fuel →
        Interpreter.evaluate ⟨limits, true⟩ fuel program state = asked ∧
        (Interpreter.ofLimits (.bounded maxDepth 0)).evaluate fuel program state = spent ∧
        (asked.fault? ≠ some .interrupted → ∀ other : Limits,
          (Interpreter.ofLimits other).evaluate fuel program state = asked)) ∧
      (asked.fault? = some .interrupted ↔ spent.fault? = some (.budgetExceeded 0)) ∧
      asked.place? = spent.place? ∧
      (asked.fault? ≠ some .interrupted → asked = spent) ∧
      asked.after?.map State.context = spent.after?.map State.context ∧
      ∀ after, asked.after? = some after → after.steps = 0 := by
  have lockstep (maxDepth fuel : Nat) :
      (Interpreter.evaluate ⟨limits, true⟩ fuel program state).StopsWith
        ((Interpreter.ofLimits (.bounded maxDepth 0)).evaluate fuel program state) :=
    program.eval_stopsWith limits rfl fuel { state with steps := 0 } rfl
  have spares : State.Spares 0 0 { state with steps := 0 } := Nat.le_refl 0
  obtain ⟨spent, finished, enough, comes⟩ := (Budget.eval_returns
    (.ofLimits (.bounded maxDepth 0)) rfl (by decide) program spares).ends
  have comes : ∀ fuel, enough ≤ fuel →
      (Interpreter.ofLimits (.bounded maxDepth 0)).evaluate fuel program state = spent := comes
  -- The two need the same fuel, so that what is enough for one is enough for the other.
  let asked := Interpreter.evaluate ⟨limits, true⟩ enough program state
  have alike : asked.StopsWith spent := comes enough (Nat.le_refl enough) ▸ lockstep maxDepth enough
  have finished' : asked ≠ .unfinished := fun stuck => finished (alike.unfinished_iff.mp stuck)
  have asks : ∀ fuel, enough ≤ fuel →
      Interpreter.evaluate ⟨limits, true⟩ fuel program state = asked := fun fuel more =>
    (Interpreter.evaluate_extends ⟨limits, true⟩ more program state).resolve_left finished'
  refine ⟨asked, spent, finished', finished, ⟨enough, fun fuel more =>
    ⟨asks fuel more, comes fuel more, fun other limits' => ?_⟩⟩, alike.fault_iff, alike.place_eq,
    fun other => (alike.eq_of_ne other).1, alike.context_eq, alike.steps_eq⟩
  obtain ⟨same, within⟩ := (asks fuel more ▸ lockstep limits'.maxDepth fuel).eq_of_ne other
  exact (Interpreter.evaluate_of_budget_zero limits' fuel program state (same ▸ finished') rfl
    within).trans same.symm

/-- A name is bound, and then a loop is not entered: on a budget of nothing, and also where calls
may be nested seven deep and no deeper, the evaluation stops there just as it does when it is asked
to. -/
theorem loop_behind_assignment_is_not_entered :
    let program : Expr := .array ⟨0, 24⟩ [.assign ⟨1, 6⟩ "x" (.number ⟨5, 6⟩ (.int 1)),
      .whileLoop ⟨8, 23⟩ (.lookup ⟨14, 15⟩ "x") (.number ⟨21, 22⟩ (.int 1))]
    let state : State := .initial (.root Context.programName)
    let asked := Interpreter.evaluate ⟨.standard, true⟩ 3 program state
    asked.fault? = some .interrupted ∧ ∃ spent : Outcome Value,
      (∃ enough, ∀ fuel, enough ≤ fuel →
        (Interpreter.ofLimits (.bounded 7 0)).evaluate fuel program state = spent) ∧
      spent.fault? = some (.budgetExceeded 0) ∧ asked.place? = spent.place? ∧
      asked.after?.map State.context = spent.after?.map State.context := by
  intro program state asked
  have interrupted : asked.fault? = some .interrupted := by decide +kernel
  have finished : asked ≠ .unfinished := fun stuck => by
    rw [stuck] at interrupted
    cases interrupted
  obtain ⟨other, spent, -, -, ⟨enough, comes⟩, fault, place, -, context, -⟩ :=
    interrupt_is_budget_of_nothing .standard 7 program state
  have same : other = asked := (comes (max 3 enough) (Nat.le_max_right 3 enough)).1.symm.trans
    ((Interpreter.evaluate_extends ⟨.standard, true⟩ (Nat.le_max_left 3 enough) program
      state).resolve_left finished)
  subst same
  exact ⟨interrupted, spent, ⟨enough, fun fuel more => (comes fuel more).2.1⟩,
    fault.mp interrupted, place, context⟩

end Treewalk

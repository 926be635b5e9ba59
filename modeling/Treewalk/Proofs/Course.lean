/-
This file follows an evaluation up to the moment at which a fault is raised, and from there on.

Until then an evaluation goes on in steps of a few kinds (`Interpreter.Step`) and closes the frames
that it has opened, so a condition on states that is kept by these holds all along. A fault is
raised in one of four ways (`Interpreter.Raises`). From then on nothing is done but to leave the
calls that were being made, and to close their frames (`State.Unwinds`). That a run follows this
course is one statement (`Run.Follows`), for any condition that is kept, so that what is asked
about the course of an evaluation is answered by choosing the condition.

The journal of an evaluation that comes to no end is never seen. What is claimed of the nodes that
such an evaluation visits is therefore said with a second evaluator beside the first one. It leaves
nodes to anything whatever as soon as the condition is not met (`Expr.diverted`), and it is the same
evaluator on all fuel.
-/
import Treewalk.Proofs.Questions

namespace Treewalk

variable {Result Other Loop : Type}

/-! ### Steps, faults and what comes after them -/

/-- Whether the event only marks the end of a loop, or the beginning or the end of a call. -/
def Event.isMark : Event → Bool
  | forFinished .. | whileFinished _ | callEntered .. | callLeft .. => true
  | _ => false

/-- Whether the event is that a call was left. -/
def Event.leavesCall : Event → Bool
  | callLeft .. => true
  | _ => false

namespace Journal

/-- Whether another journal adds events of a kind to this one, and no others. -/
def AddsOnly (earlier : Journal) (kind : Event → Prop) (journal : Journal) : Prop :=
  ∃ added, journal = added ++ earlier ∧ ∀ event ∈ added, kind event

namespace AddsOnly

variable {earlier journal : Journal} {kind : Event → Prop}

theorem refl (journal : Journal) : journal.AddsOnly kind journal :=
  ⟨[], rfl, fun _ member => absurd member List.not_mem_nil⟩

theorem cons (adds : earlier.AddsOnly kind journal) {event : Event} (fits : kind event) :
    earlier.AddsOnly kind (event :: journal) := by
  obtain ⟨added, rfl, fit⟩ := adds
  refine ⟨event :: added, rfl, fun other member => ?_⟩
  rcases List.mem_cons.mp member with rfl | before
  · exact fits
  · exact fit other before

theorem trans {middle : Journal} (first : earlier.AddsOnly kind middle)
    (second : middle.AddsOnly kind journal) : earlier.AddsOnly kind journal := by
  obtain ⟨added, rfl, fit⟩ := second
  obtain ⟨before, rfl, fits⟩ := first
  refine ⟨added ++ before, (List.append_assoc added before earlier).symm, fun event member => ?_⟩
  exact (List.mem_append.mp member).elim (fit event) (fits event)

theorem weaken {kind' : Event → Prop} (adds : earlier.AddsOnly kind journal)
    (weaker : ∀ event, kind event → kind' event) : earlier.AddsOnly kind' journal := by
  obtain ⟨added, same, fit⟩ := adds
  exact ⟨added, same, fun event member => weaker event (fit event member)⟩

end AddsOnly

end Journal

namespace Interpreter

variable (interpreter : Interpreter)

/-- One step of an evaluation that goes on. -/
inductive Step : State → State → Prop
  | visit (state : State) (node : Expr) :
    Step state (state.record (.visited state.context node))
  | assign (state : State) (name : String) (value : Value) :
    Step state ({ state with context := state.context.set name value }.record
      (.bound state.context name value))
  | count (state : State) : Step state state.counted
  | newObject (state : State) : Step state { state with nextObject := state.nextObject + 1 }
  | mark (state : State) {event : Event} (marks : event.isMark) : Step state (state.record event)
  | openFrame (state : State) (name : String) (entry : Span)
    (shallow : state.context.depth < interpreter.limits.maxDepth) :
    Step state { state with context := state.context.child name entry }

/-- Whether a condition on states is kept as long as an evaluation goes on. -/
structure Invariant (meets : State → Prop) : Prop where
  step : ∀ {state next : State}, interpreter.Step state next → meets state → meets next
  closeFrame : ∀ {outer last : State}, meets outer → meets last →
    meets { last with context := outer.context }

/-- Whether a fault is raised in a state, and with which state afterwards. The depth of calls is
looked at when a call has passed its checkpoint, and at no other moment. -/
inductive Raises (moment : State) : Fault → State → Prop
  | program {fault : Fault} (blames : fault.isLimit = false) :
    Raises moment fault (moment.record (.raised fault))
  | depth {caller : State} {function : String} {args : Nat}
    (passed : interpreter.checkpoint (caller.record (.callEntered function args)) =
      .value () moment)
    (deep : interpreter.limits.maxDepth ≤ moment.context.depth) :
    Raises moment (.stackOverflow interpreter.limits.maxDepth)
      (moment.record (.raised (.stackOverflow interpreter.limits.maxDepth)))
  | budget {budget : Nat} (bounded : interpreter.limits.budget = some budget)
    (spent : budget < moment.steps) :
    Raises moment (.budgetExceeded budget)
      ((moment.record (.budgetSpent budget)).record (.raised (.budgetExceeded budget)))
  | interrupt (asked : interpreter.interrupted = true) :
    Raises moment .interrupted
      ((moment.record (.gaveIn moment.steps)).record (.raised .interrupted))

end Interpreter

/-- Whether nothing was done from one state to another but to leave calls. No step was counted, no
array object was made, and the frames that have not been closed are as they were. -/
structure State.Unwinds (start after : State) : Prop where
  journal : start.journal.AddsOnly (fun event => event.leavesCall) after.journal
  steps : after.steps = start.steps
  nextObject : after.nextObject = start.nextObject
  frames : after.context.frames <:+ start.context.frames

namespace State.Unwinds

variable {start last : State}

theorem refl (state : State) : state.Unwinds state where
  journal := .refl _
  steps := rfl
  nextObject := rfl
  frames := List.suffix_refl _

theorem leaveCall (unwinds : start.Unwinds last) (function : String) (args : Nat) :
    start.Unwinds (last.record (.callLeft function args)) where
  journal := unwinds.journal.cons rfl
  steps := unwinds.steps
  nextObject := unwinds.nextObject
  frames := unwinds.frames

theorem closeFrame (unwinds : start.Unwinds last) {outer : Context}
    (callers : last.context.callers = outer.frames) :
    start.Unwinds { last with context := outer } where
  journal := unwinds.journal
  steps := unwinds.steps
  nextObject := unwinds.nextObject
  frames := by
    have closed : outer.frames <:+ last.context.frames :=
      callers ▸ List.suffix_cons last.context.frame last.context.callers
    exact closed.trans unwinds.frames

end State.Unwinds

/-- Whether a failure reports a fault that was raised in one context to those who are in another
one: the fault alone, as long as they are in the context it was raised in, or else stamped with that
context. -/
inductive Failure.Reports (fault : Fault) (origin : Context) : Failure → Context → Prop
  | bare : Reports fault origin (.ofFault fault) origin
  | stamped (span : Span) (context : Context) :
    Reports fault origin (origin.stamp span (.ofFault fault)) context

/-! ### Runs that follow the course -/

/-- Whether a run that started where a condition is met came to its end in the course of an
evaluation: the condition is met at its end, or it was met when a fault was raised. -/
def Outcome.Follows (interpreter : Interpreter) (meets : State → Prop) : Outcome Result → Prop
  | value _ after => meets after
  | failure reason after => ∃ moment fault raised, meets moment ∧
    interpreter.Raises moment fault raised ∧ raised.Unwinds after ∧
    reason.Reports fault moment.context after.context
  | unfinished => True

/-- Whether a run follows the course of an evaluation and another one is the same, wherever a
condition is met. -/
def Run.Follows (interpreter : Interpreter) (meets : State → Prop) (run same : Run Result) : Prop :=
  ∀ state, meets state → same state = run state ∧ (run state).Follows interpreter meets

/-- Whether every failure of a run knows its backtrace. -/
def Run.Located (run : Run Result) : Prop :=
  ∀ state failure after, run state = .failure failure after → failure.backtrace.isSome

namespace Run.Located

theorem stamped (span : Span) (run : Run Result) : (Run.stamped span run).Located := by
  intro state failure after failed
  rw [stamped_eq] at failed
  obtain ⟨inside, last, -, rfl, rfl⟩ := wrapped_eq_failure failed
  cases known : inside.backtrace <;> simp [Context.stamp, known]

theorem assignAll_bind (names : List String) (values : List Value) {rest : Run Result}
    (located : rest.Located) : (Run.assignAll names values >>= fun _ => rest).Located := by
  intro state failure after failed
  obtain ⟨journal, bound⟩ := Run.assignAll_apply names values state
  rw [bind_apply, bound] at failed
  exact located _ failure after failed

end Run.Located

theorem Expr.eval_located (interpreter : Interpreter) (fuel : Nat) (node : Expr) :
    (eval interpreter fuel node).Located := by
  cases fuel with
  | zero => exact fun _ _ _ failed => by cases failed
  | succ fuel => exact .stamped _ _

namespace Run.Follows

variable {interpreter : Interpreter} {meets : State → Prop}

theorem pure (result : Result) :
    Follows interpreter meets (Pure.pure result) (Pure.pure result) :=
  fun _ met => ⟨rfl, met⟩

theorem unfinished : Follows interpreter meets (Run.unfinished : Run Result) Run.unfinished :=
  fun _ _ => ⟨rfl, trivial⟩

theorem raises {state raised : State} {fault : Fault} (met : meets state)
    (raises : interpreter.Raises state fault raised) (same : raised.context = state.context) :
    Outcome.Follows interpreter meets (.failure (.ofFault fault) raised : Outcome Result) :=
  ⟨state, fault, raised, met, raises, .refl raised, same ▸ .bare⟩

theorem raise {fault : Fault} (program : fault.isLimit = false) :
    Follows interpreter meets (Run.raise fault : Run Result) (Run.raise fault) :=
  fun _ met => ⟨rfl, raises met (.program program) rfl⟩

theorem bind {first first' : Run Result} {next next' : Result → Run Other}
    (start : Follows interpreter meets first first')
    (rest : ∀ result, Follows interpreter meets (next result) (next' result)) :
    Follows interpreter meets (first >>= next) (first' >>= next') := by
  intro state met
  obtain ⟨same, follows⟩ := start state met
  rw [bind_apply, bind_apply, same]
  cases ending : first state with
  | value result after =>
    rw [ending] at follows
    exact rest result after follows
  | failure failure after =>
    rw [ending] at follows
    exact ⟨rfl, follows⟩
  | unfinished => exact ⟨rfl, trivial⟩

theorem stamped (span : Span) {run run' : Run Result} (inner : Follows interpreter meets run run') :
    Follows interpreter meets (Run.stamped span run) (Run.stamped span run') := by
  intro state met
  obtain ⟨same, follows⟩ := inner state met
  rw [stamped_eq, stamped_eq, wrapped_apply, wrapped_apply, id, same]
  refine ⟨rfl, ?_⟩
  cases ending : run state with
  | value result after =>
    rw [ending] at follows
    exact follows
  | failure failure after =>
    rw [ending] at follows
    obtain ⟨moment, fault, raised, met', raises, unwinds, reports⟩ := follows
    refine ⟨moment, fault, raised, met', raises, unwinds, ?_⟩
    generalize after.context = context at reports
    cases reports with
    | bare => exact .stamped span _
    | stamped place context =>
      rw [Context.stamp_stamp]
      exact .stamped place context
  | unfinished => trivial

theorem lookup (name : String) :
    Follows interpreter meets (Run.lookup name) (Run.lookup name) := by
  intro state met
  rw [lookup_apply]
  cases state.context.get? name with
  | none => exact raise rfl state met
  | some value => exact ⟨rfl, met⟩

variable (invariant : interpreter.Invariant meets)

include invariant

/-- A run of one step. -/
theorem ofStep {run : Run Result} (steps : ∀ state, ∃ result next, run state = .value result next ∧
      (next = state ∨ interpreter.Step state next)) : Follows interpreter meets run run := by
  intro state met
  obtain ⟨result, next, ended, rfl | step⟩ := steps state
  · rw [ended]
    exact ⟨rfl, met⟩
  · rw [ended]
    exact ⟨rfl, invariant.step step met⟩

theorem checkpoint :
    Follows interpreter meets interpreter.checkpoint interpreter.checkpoint := by
  intro state met
  have counted : meets state.counted := invariant.step (.count state) met
  refine ⟨rfl, ?_⟩
  rw [Interpreter.checkpoint_apply]
  split
  · rename_i asked
    exact raises met (.interrupt asked) rfl
  · cases bounded : interpreter.limits.budget with
    | none => exact counted
    | some budget =>
      dsimp only
      split
      · rename_i spent
        exact raises counted (.budget bounded spent) rfl
      · exact counted

theorem between (function : String) (args : Nat) {run run' : Run Result} {state : State}
    (inner : run' (state.record (.callEntered function args)) =
        run (state.record (.callEntered function args)) ∧
      (run (state.record (.callEntered function args))).Follows interpreter meets) :
    Run.between (.callEntered function args) (.callLeft function args) run' state =
        Run.between (.callEntered function args) (.callLeft function args) run state ∧
      (Run.between (.callEntered function args) (.callLeft function args) run state).Follows
        interpreter meets := by
  obtain ⟨same, follows⟩ := inner
  rw [between_eq, between_eq, wrapped_apply, wrapped_apply, same]
  refine ⟨rfl, ?_⟩
  cases ending : run (state.record (.callEntered function args)) with
  | value result last =>
    rw [ending] at follows
    exact invariant.step (.mark last rfl) follows
  | failure failure last =>
    rw [ending] at follows
    obtain ⟨moment, fault, raised, met', raises, unwinds, reports⟩ := follows
    exact ⟨moment, fault, raised, met', raises, unwinds.leaveCall function args, reports⟩
  | unfinished => trivial

/-- A frame is opened where calls are not nested too deeply, and it is closed again. The failure of
a run inside it knows its backtrace, so that it need not be in the context that it came from. -/
theorem inFrame (name : String) (entry : Span) {run run' : Run Result}
    (inner : Follows interpreter meets run run') (stays : run.StaysInFrame)
    (located : run.Located) {state : State} (met : meets state)
    (shallow : state.context.depth < interpreter.limits.maxDepth) :
    Run.inFrame name entry run' state = Run.inFrame name entry run state ∧
      (Run.inFrame name entry run state).Follows interpreter meets := by
  obtain ⟨same, follows⟩ := inner _ (invariant.step (.openFrame state name entry shallow) met)
  rw [inFrame_eq, inFrame_eq, wrapped_apply, wrapped_apply, same]
  refine ⟨rfl, ?_⟩
  cases ending : run { state with context := state.context.child name entry } with
  | value result last =>
    rw [ending] at follows
    exact invariant.closeFrame met follows
  | failure failure last =>
    rw [ending] at follows
    obtain ⟨moment, fault, raised, met', raises, unwinds, reports⟩ := follows
    have callers : last.context.callers = state.context.frames :=
      (stays _ last (congrArg Outcome.after? ending)).callers
    refine ⟨moment, fault, raised, met', raises, unwinds.closeFrame callers, ?_⟩
    have known := located _ failure last ending
    generalize last.context = context at reports
    cases reports with
    | bare => cases known
    | stamped span context => exact .stamped span _
  | unfinished => trivial

/-- What follows its course goes on to do so. -/
def sequential : Sequential where
  related := Follows interpreter meets
  done := pure
  next := bind
  raise _ := raise
  newObject := ofStep invariant fun state => ⟨_, _, rfl, .inr (.newObject state)⟩

theorem assign (name : String) (value : Value) :
    Follows interpreter meets (Run.assign name value) (Run.assign name value) :=
  ofStep invariant fun state => ⟨(), _, rfl, .inr (.assign state name value)⟩

section

variable {evaluate evaluate' : Expr → Run Value} (function : Function)
  (body : Follows interpreter meets (evaluate function.body) (evaluate' function.body))
  (stays : (evaluate function.body).StaysInFrame) (located : (evaluate function.body).Located)
  (args : List Value) (span : Span)

include body stays located

theorem enterBody {state : State} (met : meets state)
    (shallow : state.context.depth < interpreter.limits.maxDepth) :
    Interpreter.enterBody evaluate' function args span state =
        Interpreter.enterBody evaluate function args span state ∧
      (Interpreter.enterBody evaluate function args span state).Follows interpreter meets := by
  unfold Interpreter.enterBody
  split
  · exact raise rfl state met
  · have stays' : (Run.assignAll function.params args >>= fun _ =>
        evaluate function.body).StaysInFrame :=
      .bind ((Comparison.frame interpreter).assignAll _ _) fun _ => stays
    have bound := (sequential invariant).assignAll (assign invariant) function.params args
    exact inFrame invariant _ _ (bind bound fun _ => body) stays'
      (.assignAll_bind _ _ located) met shallow

theorem callFunction :
    Follows interpreter meets (interpreter.callFunction evaluate function args span)
      (interpreter.callFunction evaluate' function args span) := by
  intro state met
  rw [Interpreter.callFunction_eq, Interpreter.callFunction_eq]
  refine between invariant _ _ ?_
  have entered : interpreter.Step state
      (state.record (.callEntered function.displayName args.length)) := .mark state rfl
  have looked := (checkpoint invariant _ (invariant.step entered met)).2
  rw [bind_apply, bind_apply]
  cases passed : interpreter.checkpoint
      (state.record (.callEntered function.displayName args.length)) with
  | value _ moment =>
    -- The depth is looked at in the very state that the checkpoint has left.
    rw [passed] at looked
    dsimp only
    rw [Interpreter.descend_apply, Interpreter.descend_apply]
    split
    · rename_i deep
      exact ⟨rfl, raises looked (.depth passed deep) rfl⟩
    · rename_i shallow
      exact enterBody invariant function body stays located args span looked
        (Nat.not_le.mp shallow)
  | failure failure last =>
    rw [passed] at looked
    exact ⟨rfl, looked⟩
  | unfinished => exact ⟨rfl, trivial⟩

end

end Run.Follows

/-! ### Evaluation -/

/-- The evaluator with something else in its place in some states. -/
def Expr.diverted (interpreter : Interpreter) (off : State → Bool) (other : Expr → Run Value) :
    Nat → Expr → Run Value
  | 0, _ => Run.unfinished
  | fuel + 1, node => fun state =>
    if off state then other node state
    else visit interpreter fuel (diverted interpreter off other fuel) node state

section

variable {interpreter : Interpreter} {meets : State → Prop}
  (invariant : interpreter.Invariant meets) {off : State → Bool}
  (apart : ∀ state, meets state → off state = false) (other : Expr → Run Value)

include invariant

/-- The parts of a node follow the course of an evaluation if the nodes below it do. -/
def Walk.course (fuel : Nat)
    (nodes : ∀ node : Expr, Run.Follows interpreter meets (node.eval interpreter fuel)
      (node.diverted interpreter off other fuel)) :
    Walk interpreter interpreter fuel fuel (Expr.eval interpreter fuel)
      (Expr.diverted interpreter off other fuel) where
  toSequential := Run.Follows.sequential invariant
  forFinished _ _ := .ofStep invariant fun state => ⟨(), _, rfl, .inr (.mark state rfl)⟩
  whileFinished _ := .ofStep invariant fun state => ⟨(), _, rfl, .inr (.mark state rfl)⟩
  lookup := .lookup
  assign := .assign invariant
  checkpoint := .checkpoint invariant
  iterate turns := (Run.Follows.sequential invariant).iterate .unfinished turns fuel
  nodes := nodes
  callFunction function args span :=
    .callFunction invariant function (nodes _) (Expr.eval_staysInFrame interpreter fuel _)
      (Expr.eval_located interpreter fuel _) args span

include apart

/-- The evaluation of a node follows its course. The induction is on the fuel: the nodes below it,
and the body that it calls, have one unit less. -/
theorem Expr.eval_follows (fuel : Nat) (node : Expr) :
    Run.Follows interpreter meets (node.eval interpreter fuel)
      (node.diverted interpreter off other fuel) := by
  induction fuel generalizing node with
  | zero => exact .unfinished
  | succ fuel inductionHypothesis =>
    intro state met
    have here : node.diverted interpreter off other (fuel + 1) state =
        visit interpreter fuel (diverted interpreter off other fuel) node state :=
      if_neg (by rw [apart state met]; exact Bool.false_ne_true)
    rw [here, eval_succ, visit_eq, visit_eq]
    refine Run.Follows.stamped _ (.bind ?_ fun _ =>
      (Walk.course invariant other fuel inductionHypothesis).evaluateNode node) state met
    exact .ofStep invariant fun state => ⟨(), _, rfl, .inr (.visit state node)⟩

/-- The course of a whole evaluation. Its failure was stamped where its fault was raised, since the
program is a node itself. -/
theorem Interpreter.evaluate_follows (fuel : Nat) (program : Expr) (start : State)
    (met : meets { start with steps := 0 }) :
    (∀ value after, interpreter.evaluate fuel program start = .value value after → meets after) ∧
    (∀ failure after, interpreter.evaluate fuel program start = .failure failure after →
      ∃ (fault : Fault) (moment raised : State) (span : Span),
        failure = moment.context.stamp span (.ofFault fault) ∧ meets moment ∧
          interpreter.Raises moment fault raised ∧ raised.Unwinds after) ∧
    ∀ other, program.diverted interpreter off other fuel { start with steps := 0 } =
      interpreter.evaluate fuel program start := by
  have course := fun other => program.eval_follows invariant apart other fuel _ met
  have follows : (interpreter.evaluate fuel program start).Follows interpreter meets :=
    (course fun _ => Run.unfinished).2
  refine ⟨fun value after ended => ?_, fun failure after ended => ?_, fun other => (course other).1⟩
  · rw [ended] at follows
    exact follows
  · rw [ended] at follows
    obtain ⟨moment, fault, raised, met', raises, unwinds, reports⟩ := follows
    have known := program.eval_located interpreter fuel _ failure after ended
    generalize after.context = context at reports
    cases reports with
    | bare => cases known
    | stamped span context => exact ⟨fault, moment, raised, span, rfl, met', raises, unwinds⟩

end

end Treewalk

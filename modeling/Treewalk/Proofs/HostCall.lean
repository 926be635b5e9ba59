/-
This file proves that a host that calls a function and a program that calls it come to the same.

A program gets at the function and at the arguments by their names, and to look up a name does
nothing but write into the journal; the call behind that is the one that a host makes
(`Interpreter.evaluate_call`). The content is in what is done around the two. A program's call is a
node, and a failure that comes out of a node is stamped. A failure of the body was stamped there
already and stays as it is; a failure from before the body is nobody's yet, and gets the place of
the call.
-/
import Treewalk.Proofs.Ahead
import Treewalk.Proofs.Sites

namespace Treewalk

variable {Result : Type}

/-! ### What a host sees -/

/-- What a host sees of the end of a run: the result or the failure, and the context and the step
count that were left. -/
def Outcome.seen : Outcome Result → Option (Except Failure Result × Context × Nat)
  | value result after => some (.ok result, after.context, after.steps)
  | failure reason after => some (.error reason, after.context, after.steps)
  | unfinished => none

/-- Two ends that differ in their journals alone look the same. -/
theorem Outcome.Ahead.seen_eq {budget : Option Nat} {ending ending' : Outcome Result}
    (ahead : ending.Ahead 0 budget ending') : ending.seen = ending'.seen := by
  cases ahead with
  | value result ahead => exact congrArg some (Prod.ext rfl (Prod.ext ahead.context ahead.steps_eq))
  | failure failure ahead =>
    exact congrArg some (Prod.ext rfl (Prod.ext ahead.context ahead.steps_eq))
  | unfinished => rfl
  | spent leads => exact absurd leads (Nat.lt_irrefl 0)

/-! ### Names in place of values -/

namespace Expr

/-- Looking up a name that is bound writes into the journal and does nothing else. -/
theorem eval_lookup (interpreter : Interpreter) (fuel : Nat) (span : Span) {name : String}
    {value : Value} {state : State} (bound : state.context.get? name = some value) :
    eval interpreter (fuel + 1) (.lookup span name) state =
      .value value (state.record (.visited state.context (.lookup span name))) := by
  have found : evaluateNode interpreter fuel (eval interpreter fuel) (.lookup span name)
      (state.record (.visited state.context (.lookup span name))) =
      .value value (state.record (.visited state.context (.lookup span name))) := by
    have visible : (state.record (.visited state.context (.lookup span name))).context.get? name =
        some value := bound
    show Run.lookup name _ = _
    rw [Run.lookup_apply, visible]
  rw [eval_succ, visit_apply, found]

/-- A list of names is evaluated to what they are bound to. -/
theorem evaluateAll_lookups (interpreter : Interpreter) (fuel : Nat) {names : List (Span × String)}
    {values : List Value} (state : State)
    (given : names.map (fun place => state.context.get? place.2) = values.map some) :
    ∃ journal, evaluateAll (eval interpreter (fuel + 1))
        (names.map fun place => .lookup place.1 place.2) state =
      .value values { state with journal := journal } := by
  induction names generalizing values state with
  | nil =>
    obtain rfl := List.map_eq_nil_iff.mp given.symm
    exact ⟨state.journal, rfl⟩
  | cons place rest inductionHypothesis =>
    obtain ⟨value, values, rfl, bound, given⟩ := List.map_eq_cons_iff.mp given.symm
    let looked := state.record (.visited state.context (.lookup place.1 place.2))
    obtain ⟨journal, later⟩ := inductionHypothesis looked given.symm
    refine ⟨journal, ?_⟩
    show (eval interpreter (fuel + 1) (.lookup place.1 place.2) >>= fun value =>
      evaluateAll (eval interpreter (fuel + 1)) (rest.map fun place => .lookup place.1 place.2) >>=
        fun values => pure (value :: values)) state = _
    rw [Run.bind_apply, eval_lookup interpreter fuel place.1 bound.symm]
    dsimp only
    rw [Run.bind_apply, later]
    rfl

end Expr

/-! ### The two calls -/

namespace Interpreter

variable (interpreter : Interpreter) (fuel : Nat) {function : Function} {args : List Value}
  (span : Span) {callee : Span × String} {names : List (Span × String)} {state : State}

/-- The call of a function and of arguments that are given by name is, in a journal of its own, a
host's call, and its failures are stamped. -/
theorem evaluate_call (bound : state.context.get? callee.2 = some (.function function))
    (given : names.map (fun place => state.context.get? place.2) = args.map some) :
    ∃ journal, interpreter.evaluate (fuel + 2)
        (.call span (.lookup callee.1 callee.2) (names.map fun place => .lookup place.1 place.2))
        state =
      Run.stamped span
        (interpreter.callFunction (Expr.eval interpreter (fuel + 1)) function args span)
        { state with steps := 0, journal := journal } := by
  let node : Expr :=
    .call span (.lookup callee.1 callee.2) (names.map fun place => .lookup place.1 place.2)
  let visited := State.record { state with steps := 0 } (.visited state.context node)
  let looked := visited.record (.visited state.context (.lookup callee.1 callee.2))
  obtain ⟨journal, found⟩ := Expr.evaluateAll_lookups interpreter fuel looked given
  refine ⟨journal, ?_⟩
  have called : Expr.evaluateNode interpreter (fuel + 1) (Expr.eval interpreter (fuel + 1)) node
      visited =
      interpreter.callFunction (Expr.eval interpreter (fuel + 1)) function args span
        { state with steps := 0, journal := journal } := by
    have first : Expr.eval interpreter (fuel + 1) (.lookup callee.1 callee.2) visited =
        .value (.function function) looked := Expr.eval_lookup interpreter fuel callee.1 bound
    unfold node
    rw [Expr.evaluateNode, Run.bind_apply, first]
    dsimp only
    rw [Run.bind_apply, found]
    rfl
  show Expr.eval interpreter (fuel + 2) node { state with steps := 0 } = _
  rw [Expr.eval_succ, Expr.visit_apply, called, Run.stamped]
  cases interpreter.callFunction (Expr.eval interpreter (fuel + 1)) function args span
    { state with steps := 0, journal := journal } <;> rfl

/-- A host's call that gets as far as the body fails where the body does. -/
theorem failure_of_admitted {failure : Failure} {after : State}
    (admits : interpreter.Admits function args state.context)
    (failed : interpreter.execute fuel function args span state = .failure failure after) :
    ∃ start last, start.StartsBody function args span state.context ∧
      function.body.eval interpreter fuel start = .failure failure last := by
  obtain ⟨start, starts, same⟩ := interpreter.execute_admitted function args span fuel admits
  rw [same] at failed
  obtain ⟨inside, last, ended, rfl, -⟩ := Run.wrapped_eq_failure failed
  exact ⟨start, last, starts, ended⟩

end Interpreter

/-- A function that is bound to a name, called by that name and with arguments by theirs, and the
same function called by a host, with the same span, come to the same value, or to failures of which
the program's is the host's, stamped with the place of the call; and either way they leave the same
context and the same step count. A call that is refused before its body starts fails, for the host,
at no known place. A failure of a call that is let in is one that the body failed with, and it knows
its place already, so that the stamp does nothing. -/
theorem host_call_is_node_call (interpreter : Interpreter) (fuel : Nat) (function : Function)
    (args : List Value) (span : Span) (callee : Span × String) (names : List (Span × String))
    (state : State) (bound : state.context.get? callee.2 = some (.function function))
    (given : names.map (fun place => state.context.get? place.2) = args.map some) :
    let ending := interpreter.execute (fuel + 1) function args span state
    (interpreter.evaluate (fuel + 2)
        (.call span (.lookup callee.1 callee.2) (names.map fun place => .lookup place.1 place.2))
        state).seen =
      ending.seen.map (fun (result, left) =>
        (result.mapError (state.context.stamp span), left)) ∧
    (∀ fault, interpreter.refusal? function args state.context = some fault →
      ∃ after, ending = .failure (.ofFault fault) after) ∧
    (interpreter.refusal? function args state.context = none →
      ∀ failure after, ending = .failure failure after →
        (∃ start last, start.StartsBody function args span state.context ∧
          function.body.eval interpreter (fuel + 1) start = .failure failure last) ∧
        failure.span.isSome ∧ failure.backtrace.isSome ∧
        state.context.stamp span failure = failure) := by
  intro ending
  refine ⟨?_, fun fault refused => ?_, fun allowed failure after failed => ?_⟩
  · obtain ⟨journal, same⟩ := interpreter.evaluate_call fuel span bound given
    have keeps := Run.KeepsContext.callFunction interpreter (Expr.eval interpreter (fuel + 1))
      function args span { state with steps := 0, journal := journal }
    have nodes := fun node => Expr.eval_ahead 0 interpreter (fuel + 1) node
    have ahead := (Run.Ahead.callFunction interpreter nodes function args span).follows
      { state with steps := 0, journal := journal } { state with steps := 0 }
      ⟨rfl, rfl, rfl, Nat.zero_le _⟩
    have called : ending.seen = _ := ahead.seen_eq.symm
    rw [same, called]
    unfold Run.stamped
    generalize interpreter.callFunction (Expr.eval interpreter (fuel + 1)) function args span
      { state with steps := 0, journal := journal } = inside at keeps
    cases inside with
    | value | unfinished => rfl
    | failure failure last =>
      have left : last.context = state.context := keeps last rfl
      show some (Except.error (last.context.stamp span failure), last.context, last.steps) =
        some (Except.error (state.context.stamp span failure), last.context, last.steps)
      rw [left]
  · obtain ⟨after, failed⟩ := interpreter.callFunction_refusal function args span state refused
    exact ⟨after, failed _⟩
  · have admits := Interpreter.refusal?_eq_none_iff.mp allowed
    obtain ⟨start, last, starts, inside⟩ :=
      interpreter.failure_of_admitted (fuel + 1) span admits failed
    obtain ⟨place, located⟩ := Expr.located_of_failure inside
    exact ⟨⟨start, last, starts, inside⟩, place, located,
      state.context.stamp_of_located span located⟩

/-- A function of one parameter looks up a name that it does not bind. With an argument, its body
fails at that name; without one, the call is refused, and the program has its own span for that. -/
theorem unbound_name_in_host_call :
    let function : Function := ⟨some "f", ["a"], 0, .lookup ⟨9, 10⟩ "b"⟩
    let state : State := .initial
      (((Context.root Context.programName).set "f" (.function function)).set "x" (.int 1))
    let interpreter : Interpreter := .ofLimits (.bounded 1 1)
    let refused : Fault := .arityMismatch "f" 1 0
    (∃ failure after, interpreter.execute 2 function [.int 1] ⟨12, 16⟩ state =
        .failure failure after ∧ failure.backtrace.isSome ∧
      (interpreter.evaluate 3
        (.call ⟨12, 16⟩ (.lookup ⟨12, 13⟩ "f") [.lookup ⟨14, 15⟩ "x"]) state).seen =
        some (.error failure, after.context, after.steps)) ∧
    ∃ after, interpreter.execute 2 function [] ⟨12, 15⟩ state =
        .failure (.ofFault refused) after ∧
      (interpreter.evaluate 3 (.call ⟨12, 15⟩ (.lookup ⟨12, 13⟩ "f") []) state).seen =
        some (.error (state.context.stamp ⟨12, 15⟩ (.ofFault refused)), after.context,
          after.steps) := by
  intro function state interpreter refused
  constructor
  · obtain ⟨same, -, inBody⟩ := host_call_is_node_call interpreter 1 function [.int 1] ⟨12, 16⟩
      (⟨12, 13⟩, "f") [(⟨14, 15⟩, "x")] state rfl rfl
    have failed : (interpreter.execute 2 function [.int 1] ⟨12, 16⟩ state).fault? =
        some (.undefinedVariable "b") := by decide +kernel
    cases ending : interpreter.execute 2 function [.int 1] ⟨12, 16⟩ state with
    | failure failure after =>
      obtain ⟨-, -, located, stamped⟩ := inBody (by decide) failure after ending
      refine ⟨failure, after, rfl, located, same.trans ?_⟩
      rw [ending]
      show some (Except.error (state.context.stamp ⟨12, 16⟩ failure), _) = _
      rw [stamped]
    | value | unfinished =>
      rw [ending] at failed
      cases failed
  · obtain ⟨same, before, -⟩ := host_call_is_node_call interpreter 1 function [] ⟨12, 15⟩
      (⟨12, 13⟩, "f") [] state rfl rfl
    obtain ⟨after, ending⟩ := before refused (by decide)
    refine ⟨after, ending, same.trans ?_⟩
    rw [ending]
    rfl

end Treewalk

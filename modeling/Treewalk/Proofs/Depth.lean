/-
This file proves that calls are nested as deeply as the limit says, and no deeper.

A frame is opened only where the depth is below the limit, so the depth is never more than the
limit, or than the depth at the beginning if that was more already: then no frame is opened at all.
A call that is made where the depth has come up to the limit fails. It has passed its checkpoint by
then, and nothing was asked about its arguments. As every frame has a site in a backtrace, the
length of the backtrace tells exactly how deep that was.
-/
import Treewalk.Proofs.Course
import Treewalk.Proofs.Isolation

namespace Treewalk

/-! ### Depths that are kept -/

/-- Whether the event, if it is the visit of a node, happened no deeper than at a given depth. -/
def Event.VisitsWithin (top : Nat) : Event → Prop
  | visited context _ => context.depth ≤ top
  | _ => True

theorem Event.visitsWithin_of_leavesCall {event : Event} (leaves : event.leavesCall = true)
    (top : Nat) : event.VisitsWithin top := by
  cases event with
  | visited => cases leaves
  | _ => trivial

/-- Whether an evaluation that has started in one state has come to another one by visits of nodes
that were not deeper than at a given depth, and is not deeper now. -/
structure State.Descends (start : State) (top : Nat) (state : State) : Prop where
  above : start.context.depth ≤ state.context.depth
  below : state.context.depth ≤ top
  visits : start.journal.AddsOnly (Event.VisitsWithin top) state.journal

namespace Interpreter

/-- The greatest depth that an evaluation which starts in a context can come to. -/
def deepest (interpreter : Interpreter) (context : Context) : Nat :=
  max context.depth interpreter.limits.maxDepth

variable (interpreter : Interpreter)

/-- A frame is opened below the limit only, and the depth at which it is closed is the one that was
kept to before. -/
theorem invariant_depth (start : State) :
    interpreter.Invariant (start.Descends (interpreter.deepest start.context)) where
  step step descends := by
    obtain ⟨above, below, visits⟩ := descends
    cases step with
    | visit node => exact ⟨above, below, visits.cons below⟩
    | assign name value => exact ⟨above, below, visits.cons trivial⟩
    | count => exact ⟨above, below, visits.cons trivial⟩
    | newObject => exact ⟨above, below, visits⟩
    | @mark event marks =>
      refine ⟨above, below, visits.cons ?_⟩
      cases event with
      | visited => cases marks
      | _ => trivial
    | openFrame name entry shallow =>
      exact ⟨Nat.le_succ_of_le above, Nat.le_trans shallow (Nat.le_max_right _ _), visits⟩
  closeFrame outer last := ⟨outer.above, outer.below, last.visits⟩

/-! ### Calls at the limit -/

variable {interpreter}

/-- A call goes beyond the limit of depth if it was made at that depth and has passed its
checkpoint, and in no other case. What a body fails with has a backtrace, so that a failure without
one is the call's own. -/
theorem callFunction_overflows_iff (fuel : Nat) (function : Function) (args : List Value)
    (span : Span) (caller : State) :
    (∃ limit after, interpreter.callFunction (Expr.eval interpreter fuel) function args span
        caller = .failure (.ofFault (.stackOverflow limit)) after) ↔
      interpreter.limits.maxDepth ≤ caller.context.depth ∧
        ∃ passed, interpreter.checkpoint
          (caller.record (.callEntered function.displayName args.length)) = .value () passed := by
  rw [callFunction_eq, Run.between_eq]
  constructor
  · rintro ⟨limit, after, failed⟩
    obtain ⟨_, last, failed, rfl, -⟩ := Run.wrapped_eq_failure failed
    rcases Run.bind_eq_failure failed with refused | ⟨⟨⟩, passed, checked, failed⟩
    · rw [checkpoint_apply] at refused
      repeat' split at refused
      all_goals cases refused
    · have kept : passed.context = caller.context := context_of_checkpoint checked
      rw [descend_apply] at failed
      split at failed
      · rename_i deep
        exact ⟨kept ▸ deep, passed, checked⟩
      · unfold enterBody at failed
        split at failed
        · cases failed
        · rw [Run.inFrame_eq] at failed
          obtain ⟨_, last', inside, rfl, -⟩ := Run.wrapped_eq_failure failed
          have located := Run.Located.assignAll_bind function.params args
            (function.body.eval_located interpreter fuel) _ _ last' inside
          cases located
  · rintro ⟨deep, passed, checked⟩
    have kept : passed.context = caller.context := context_of_checkpoint checked
    let overflow : Fault := .stackOverflow interpreter.limits.maxDepth
    refine ⟨interpreter.limits.maxDepth, (passed.record (.raised overflow)).record
      (.callLeft function.displayName args.length), ?_⟩
    rw [Run.wrapped_apply, Run.bind_apply, checked]
    dsimp only
    rw [descend_apply, if_pos (kept ▸ deep)]
    rfl

end Interpreter

/-! ### Evaluation -/

/-- Whether a failure, told in some state, is that of a call that was made too deep: the call has
passed its checkpoint where calls are nested as deeply as they may be, and failed at once. -/
def Failure.OverflowsIn (interpreter : Interpreter) (failure : Failure) (after : State) : Prop :=
  ∃ (caller passed : State) (function : String) (args : Nat),
    interpreter.checkpoint (caller.record (.callEntered function args)) = .value () passed ∧
    interpreter.limits.maxDepth ≤ caller.context.depth ∧
    Journal.AddsOnly (.raised failure.fault :: passed.journal) (fun event => event.leavesCall)
      after.journal

namespace Interpreter.Raises

variable {interpreter : Interpreter} {moment raised after : State} {fault : Fault}

/-- No node is visited from the moment on at which a fault is raised. -/
theorem visits {earlier : Journal} {top : Nat} (raises : interpreter.Raises moment fault raised)
    (unwinds : raised.Unwinds after)
    (visits : earlier.AddsOnly (Event.VisitsWithin top) moment.journal) :
    earlier.AddsOnly (Event.VisitsWithin top) after.journal := by
  have left : raised.journal.AddsOnly (Event.VisitsWithin top) after.journal :=
    unwinds.journal.weaken fun event leaves => event.visitsWithin_of_leavesCall leaves top
  refine .trans ?_ left
  cases raises with
  | program | depth => exact .cons visits (by trivial)
  | budget | interrupt => exact .cons (.cons visits (by trivial)) (by trivial)

/-- The fault that calls are nested too deeply is raised at the limit, by a call. -/
theorem overflows {depth : Nat} (raises : interpreter.Raises moment (.stackOverflow depth) raised)
    (unwinds : raised.Unwinds after) {failure : Failure}
    (fault : failure.fault = .stackOverflow depth) :
    depth = interpreter.limits.maxDepth ∧ interpreter.limits.maxDepth ≤ moment.context.depth ∧
      failure.OverflowsIn interpreter after := by
  cases raises with
  | program blames => cases blames
  | @depth caller function args passed deep =>
    have kept : moment.context = caller.context := context_of_checkpoint passed
    exact ⟨rfl, deep, caller, moment, function, args, passed, kept ▸ deep,
      fault ▸ unwinds.journal⟩

end Interpreter.Raises

/-- No node is evaluated deeper than at the limit, or than at the depth that the evaluation has
started at if that is more. This is said of the nodes that a finished evaluation has visited, and of
every evaluation: any evaluator may take the place of this one for nodes that are deeper.

A failure lists no more frames than that depth has. If it says that the depth of calls has gone
beyond the limit, it names the limit, lists exactly as many frames, and is that of a call made at
the limit which had passed its checkpoint. Every such call fails so, whatever its arguments are. -/
theorem call_depth_is_bounded (interpreter : Interpreter) (fuel : Nat) (program : Expr)
    (start : State) :
    (∀ other, program.diverted interpreter
        (fun state => interpreter.deepest start.context < state.context.depth) other fuel
          { start with steps := 0 } =
      interpreter.evaluate fuel program start) ∧
    (∀ after, (interpreter.evaluate fuel program start).after? = some after →
      start.journal.AddsOnly (Event.VisitsWithin (interpreter.deepest start.context))
        after.journal) ∧
    (∀ failure after, interpreter.evaluate fuel program start = .failure failure after →
      ∃ sites, failure.backtrace = some ⟨sites⟩ ∧
        sites.length ≤ interpreter.deepest start.context + 1 ∧
        ∀ depth, failure.fault = .stackOverflow depth →
          depth = interpreter.limits.maxDepth ∧
          sites.length = interpreter.deepest start.context + 1 ∧
          failure.OverflowsIn interpreter after) ∧
    ∀ (function : Function) (args : List Value) (span : Span) (caller : State),
      (∃ limit after, interpreter.callFunction (Expr.eval interpreter fuel) function args span
          caller = .failure (.ofFault (.stackOverflow limit)) after) ↔
        interpreter.limits.maxDepth ≤ caller.context.depth ∧
          ∃ passed, interpreter.checkpoint
            (caller.record (.callEntered function.displayName args.length)) =
              .value () passed := by
  let top := interpreter.deepest start.context
  have apart : ∀ state : State, start.Descends top state →
      decide (top < state.context.depth) = false :=
    fun state descends => decide_eq_false (Nat.not_lt.mpr descends.below)
  have begun : start.Descends top { start with steps := 0 } :=
    ⟨Nat.le_refl _, Nat.le_max_left _ _, .refl start.journal⟩
  obtain ⟨valued, failed, diverted⟩ := interpreter.evaluate_follows
    (interpreter.invariant_depth start) apart fuel program start begun
  refine ⟨diverted, fun after left => ?_, fun failure after ended => ?_,
    Interpreter.callFunction_overflows_iff fuel⟩
  · cases ending : interpreter.evaluate fuel program start with
    | value value last =>
      rw [ending] at left
      cases left
      exact (valued value after ending).visits
    | failure failure last =>
      rw [ending] at left
      cases left
      obtain ⟨fault, moment, raised, span, -, descends, raises, unwinds⟩ :=
        failed failure after ending
      exact raises.visits unwinds descends.visits
    | unfinished =>
      rw [ending] at left
      cases left
  · obtain ⟨fault, moment, raised, span, rfl, descends, raises, unwinds⟩ :=
      failed failure after ended
    have length : (moment.context.backtrace (some span)).sites.length = moment.context.depth + 1 :=
      Context.length_backtrace _ _
    have few : (moment.context.backtrace (some span)).sites.length ≤ top + 1 :=
      Nat.le_trans (Nat.le_of_eq length) (Nat.succ_le_succ descends.below)
    refine ⟨(moment.context.backtrace (some span)).sites, rfl, few, fun depth overflow => ?_⟩
    have same : fault = .stackOverflow depth := overflow
    obtain ⟨limit, deep, overflows⟩ := (same ▸ raises).overflows unwinds overflow
    have many : top ≤ moment.context.depth := Nat.max_le.mpr ⟨descends.above, deep⟩
    exact ⟨limit, Nat.le_antisymm few (length ▸ Nat.succ_le_succ many), overflows⟩

/-- A function that is called with itself and calls itself so, evaluated two frames above a root
and with a limit of four: the third call from there on is too deep. -/
theorem endless_recursion_is_cut_at_the_limit :
    let program : Expr := .call ⟨0, 40⟩
      (.define ⟨0, 20⟩ none ["f"] 0 (.call ⟨10, 14⟩ (.lookup ⟨10, 11⟩ "f") [.lookup ⟨12, 13⟩ "f"]))
      [.define ⟨22, 39⟩ none ["f"] 0
        (.call ⟨10, 14⟩ (.lookup ⟨10, 11⟩ "f") [.lookup ⟨12, 13⟩ "f"])]
    let start : State :=
      .initial (((Context.root "main").child "g" ⟨50, 53⟩).child "h" ⟨60, 63⟩)
    let interpreter : Interpreter := .ofLimits (.bounded 4 100)
    ∃ failure after sites, interpreter.evaluate 6 program start = .failure failure after ∧
      failure.fault = .stackOverflow 4 ∧ failure.backtrace = some ⟨sites⟩ ∧ sites.length = 5 ∧
      failure.OverflowsIn interpreter after ∧
      start.journal.AddsOnly (Event.VisitsWithin 4) after.journal := by
  intro program start interpreter
  have overflow : (interpreter.evaluate 6 program start).fault? = some (.stackOverflow 4) := by
    decide +kernel
  cases ending : interpreter.evaluate 6 program start with
  | failure failure after =>
    rw [ending] at overflow
    have fault : failure.fault = .stackOverflow 4 := Option.some.inj overflow
    obtain ⟨-, visits, told, -⟩ := call_depth_is_bounded interpreter 6 program start
    obtain ⟨sites, backtrace, -, exactly⟩ := told failure after ending
    obtain ⟨-, five, overflows⟩ := exactly 4 fault
    exact ⟨failure, after, sites, rfl, fault, backtrace, five, overflows,
      visits after (congrArg Outcome.after? ending)⟩
  | value | unfinished =>
    rw [ending] at overflow
    cases overflow

end Treewalk

/-
This file proves that a counting loop runs its body once for every number of its range, whatever the
body does.

A body may bind the name of the loop, or the names that the bounds were computed from. The loop does
not look at them: what it carries from round to round is the rest of its range and the values so
far. So its course can be told without a range and without fuel. Round after round starts in the
bindings that the one before has left, with the name bound to the next number of the progression
(`Rounds`), and a loop that ends has run through all of them or has failed in one (`LoopEnds`). Both
directions are proved: a loop that ends does so in one of these ways, and each way is the end of the
loop. On the way there the loop is always where the range is after so many rounds
(`forTurns_of_rounds`, `loopEnds_of_forTurns`).
-/
import Treewalk.Proofs.Counting
import Treewalk.Proofs.Footprint
import Treewalk.Proofs.Fuel
import Treewalk.Proofs.Isolation
import Treewalk.Proofs.Sites
import Treewalk.Proofs.Termination

namespace Treewalk

variable {interpreter : Interpreter} {span : Span} {name : String} {body : Expr}

/-! ### Rounds -/

/-- Whether a round of a counting loop gets as far as its body: the checkpoint lets it pass, and the
name is bound to the number of the round. -/
def State.StartsRound (before : State) (interpreter : Interpreter) (name : String) (number : Int)
    (ready : State) : Prop :=
  ∃ (word : Int64) (passed : State), word.toInt = number ∧
    interpreter.checkpoint before = .value () passed ∧
    Run.assign name (.int word) passed = .value () ready

/-- Whether a round of a counting loop fails, and what with: at its checkpoint, which is where the
loop stands, or in its body. -/
inductive State.FailsRound (before : State) (interpreter : Interpreter) (span : Span)
    (name : String) (body : Expr) (number : Int) : Failure → State → Prop
  | checkpoint {failure : Failure} {after : State}
      (stopped : interpreter.checkpoint before = .failure failure after) :
      FailsRound before interpreter span name body number (after.context.stamp span failure) after
  | body {ready after : State} {failure : Failure}
      (starts : before.StartsRound interpreter name number ready)
      (fails : ComesTo (fun fuel => body.eval interpreter fuel) ready (.failure failure after)) :
      FailsRound before interpreter span name body number failure after

/-- The first rounds of a counting loop, with the values that they come to. Each round starts where
the one before has ended. -/
inductive Rounds (interpreter : Interpreter) (name : String) (body : Expr) (start step : Int)
    (first : State) : Nat → List Value → State → Prop
  | none : Rounds interpreter name body start step first 0 [] first
  | more {index : Nat} {values : List Value} {before ready after : State} {value : Value}
      (earlier : Rounds interpreter name body start step first index values before)
      (starts : before.StartsRound interpreter name (start + index * step) ready)
      (comes : ComesTo (fun fuel => body.eval interpreter fuel) ready (.value value after)) :
      Rounds interpreter name body start step first (index + 1) (values ++ [value]) after

/-- How a counting loop of so many rounds ends. -/
inductive LoopEnds (interpreter : Interpreter) (span : Span) (name : String) (body : Expr)
    (start step : Int) (count : Nat) (first : State) : Outcome (List Value) → Prop
  | value {values : List Value} {left : State}
      (rounds : Rounds interpreter name body start step first count values left) :
      LoopEnds interpreter span name body start step count first (.value values left)
  | failure {index : Nat} {values : List Value} {before after : State} {failure : Failure}
      (early : index < count)
      (rounds : Rounds interpreter name body start step first index values before)
      (fails : before.FailsRound interpreter span name body (start + index * step) failure after) :
      LoopEnds interpreter span name body start step count first (.failure failure after)

/-- A body starts with what was bound before the round, apart from the name of the loop. -/
theorem State.StartsRound.context_eq {before ready : State} {number : Int}
    (starts : before.StartsRound interpreter name number ready) :
    ∃ word : Int64, word.toInt = number ∧ ready.context = before.context.set name (.int word) := by
  obtain ⟨word, passed, exact, checked, bound⟩ := starts
  refine ⟨word, exact, ?_⟩
  have kept : passed.context = before.context :=
    Run.KeepsContext.checkpoint interpreter before passed (congrArg Outcome.after? checked)
  cases bound
  show passed.context.set name (.int word) = _
  rw [kept]

theorem Rounds.length_values {start step : Int} {first left : State} {index : Nat}
    {values : List Value}
    (rounds : Rounds interpreter name body start step first index values left) :
    values.length = index := by
  induction rounds with
  | none => rfl
  | more earlier starts comes inductionHypothesis =>
    rw [List.length_append, inductionHypothesis]
    rfl

/-! ### Ends of bodies -/

/-- A program that ended on some fuel comes to this end. -/
theorem Expr.comesTo_of_eval (fuel : Nat) {node : Expr} {state : State} {ending : Outcome Value}
    (ended : node.eval interpreter fuel state = ending) (finished : ending ≠ .unfinished) :
    ComesTo (fun fuel => node.eval interpreter fuel) state ending := by
  refine ⟨fuel, fun more enough => ?_⟩
  have same := (eval_extends interpreter enough node state).resolve_left (ended ▸ finished)
  exact same.trans ended

theorem Context.stamp_of_comesTo {node : Expr} {state after : State} {failure : Failure}
    (fails : ComesTo (fun fuel => node.eval interpreter fuel) state (.failure failure after))
    (span : Span) : after.context.stamp span failure = failure := by
  obtain ⟨enough, comes⟩ := fails
  exact stamp_of_located after.context span (Expr.located_of_failure (comes enough le_rfl)).2

/-- A run that touches no more than it may keeps what it was started with. -/
theorem Run.Agrees.kept {Result : Type} {names targets : String → Prop}
    {same : Result → Result → Prop} {run : Run Result}
    (agrees : Run.Agrees names targets same run run) {state after : State}
    (left : (run state).after? = some after) :
    state.context.KeptUpTo targets after.context := by
  have alone := agrees state state ⟨⟨rfl, fun _ _ => rfl⟩, rfl⟩
  generalize run state = ending at alone left
  cases alone with
  | value results leave =>
    cases left
    exact leave.kept
  | failure failure leave =>
    cases left
    exact leave.kept
  | unfinished => cases left

/-- After rounds whose body does not bind the name, the name is bound to the number of the last
one. -/
theorem Rounds.get?_last {start step : Int} {first left : State} {count : Nat}
    {values : List Value}
    (rounds : Rounds interpreter name body start step first count values left) (some : 0 < count)
    (untouched : ¬ body.Targets name) :
    ∃ word : Int64, word.toInt = start + (count - 1 : Int) * step ∧
      left.context.get? name = Option.some (.int word) := by
  cases rounds with
  | none => exact absurd some (lt_irrefl 0)
  | @more index _ before ready _ value earlier starts comes =>
    obtain ⟨word, exact, bound⟩ := starts.context_eq
    obtain ⟨enough, comes⟩ := comes
    have kept : ready.context.KeptUpTo body.Targets left.context :=
      (Expr.eval_agrees interpreter enough (.own body)).kept
        (congrArg Outcome.after? (comes enough le_rfl))
    refine ⟨word, ?_, ?_⟩
    · rw [exact, Nat.cast_succ, add_sub_cancel_right]
    · rw [kept.unchanged name untouched, bound, Context.get?_set_self]

/-- Without a round nothing happens. -/
theorem Rounds.left_eq {start step : Int} {first left : State} {values : List Value}
    (rounds : Rounds interpreter name body start step first 0 values left) : left = first := by
  cases rounds
  rfl

/-! ### One turn -/

theorem Run.stamped_apply {Result : Type} (span : Span) (inner : Run Result) (state : State) :
    stamped span inner state =
      match inner state with
      | .value result last => .value result last
      | .failure failure last => .failure (last.context.stamp span failure) last
      | .unfinished => .unfinished := rfl

theorem Range.next_after {range : Range} {index : Nat} {number : Number}
    (given : range.given? index = some number) :
    (range.after index).next = (some number, range.after (index + 1)) := Prod.ext given rfl

theorem Range.ended_after_rounds (start stop : Int64) {step : Int64} (moves : step ≠ 0) :
    ((Range.int (some start) stop step).after
      (Range.rounds start.toInt stop.toInt step.toInt)).next.1 = none :=
  Range.given?_int_of_rounds_le moves le_rfl

section Turns

variable {evaluate : Expr → Run Value} {range rest : Range} {values : List Value}

theorem Expr.forTurn_ended (ended : range.next.1 = none) :
    forTurn interpreter evaluate name body (range, values) = pure (.done values.reverse) := by
  rw [forTurn]
  generalize range.next = next at ended
  obtain ⟨_, _⟩ := next
  cases ended
  rfl

theorem Expr.forTurn_given {number : Number} (gives : range.next = (some number, rest)) :
    forTurn interpreter evaluate name body (range, values) = (do
      interpreter.checkpoint
      Run.assign name (.number number)
      let value ← evaluate body
      pure (.again (rest, value :: values))) := by
  rw [forTurn, gives]

variable {word : Int64} {before ready : State}

/-- Once a round has started, its turn is up to the body. -/
theorem Expr.forTurn_of_starts (gives : range.next = (some (.int word), rest))
    (starts : before.StartsRound interpreter name word.toInt ready) :
    forTurn interpreter evaluate name body (range, values) before =
      (evaluate body >>= fun value => pure (.again (rest, value :: values))) ready := by
  obtain ⟨same, passed, exact, checked, bound⟩ := starts
  obtain rfl := Int64.toInt_inj.mp exact
  rw [forTurn_given gives, Run.bind_apply, checked]
  show (Run.assign name (.int same) >>= _) passed = _
  rw [Run.bind_apply, bound]

/-- A turn stops at the checkpoint or starts a round. -/
theorem Expr.stops_or_starts (interpreter : Interpreter) (name : String) (word : Int64)
    (before : State) :
    (∃ failure after, interpreter.checkpoint before = .failure failure after) ∨
      ∃ ready, before.StartsRound interpreter name word.toInt ready := by
  cases checked : interpreter.checkpoint before with
  | failure failure after => exact .inl ⟨failure, after, rfl⟩
  | value result passed => exact .inr ⟨_, word, passed, rfl, checked, rfl⟩
  | unfinished =>
    rw [Interpreter.checkpoint_apply] at checked
    split at checked
    · cases checked
    · split at checked
      · cases checked
      · split at checked <;> cases checked

end Turns

/-! ### All turns -/

section Loop

variable {start stop step : Int64} {first : State}

/-- The turns of a counting loop that are left, at most so many, when its nodes are evaluated with
some fuel. -/
def Expr.forTurns (interpreter : Interpreter) (name : String) (body : Expr) (fuel turns : Nat)
    (loop : Range × List Value) : Run (List Value) :=
  Run.iterate (forTurn interpreter (eval interpreter fuel) name body) turns loop

theorem Expr.forTurns_succ (fuel turns : Nat) (loop : Range × List Value) (state : State) :
    forTurns interpreter name body fuel (turns + 1) loop state =
      match forTurn interpreter (eval interpreter fuel) name body loop state with
      | .value (.again next) after => forTurns interpreter name body fuel turns next after
      | .value (.done values) after => .value values after
      | .failure failure after => .failure failure after
      | .unfinished => .unfinished := by
  show Run.iterate _ (turns + 1) loop state = _
  rw [Run.iterate_apply]
  cases forTurn interpreter (eval interpreter fuel) name body loop state with
  | value result after => cases result <;> rfl
  | failure | unfinished => rfl

/-- After so many rounds, the loop is where its range is after so many numbers. The induction is on
the rounds; each of them asks for its own amount of fuel. -/
theorem forTurns_of_rounds (moves : step ≠ 0) {index : Nat} {values : List Value} {left : State}
    (rounds : Rounds interpreter name body start.toInt step.toInt first index values left)
    (within : index ≤ Range.rounds start.toInt stop.toInt step.toInt) :
    ∃ enough, ∀ fuel, enough ≤ fuel → ∀ turns,
      Expr.forTurns interpreter name body fuel (index + turns) (.int (some start) stop step, [])
          first =
        Expr.forTurns interpreter name body fuel turns
          ((Range.int (some start) stop step).after index, values.reverse) left := by
  induction rounds with
  | none => exact ⟨0, fun _ _ turns => by rw [Nat.zero_add]; rfl⟩
  | @more index values before ready after value earlier starts comes inductionHypothesis =>
    obtain ⟨enough, same⟩ := inductionHypothesis (Nat.le_of_succ_le within)
    obtain ⟨enough', comes⟩ := comes
    refine ⟨max enough enough', fun fuel more turns => ?_⟩
    obtain ⟨word, exact, given⟩ := Range.given?_int moves within
    rw [← exact] at starts
    have answer : body.eval interpreter fuel ready = .value value after := comes fuel (by omega)
    rw [Nat.add_assoc, Nat.add_comm 1, same fuel (by omega), Expr.forTurns_succ,
      Expr.forTurn_of_starts (Range.next_after given) starts, Run.bind_apply, answer,
      List.reverse_append]
    rfl

/-- Whatever way there is for the loop to end is its end. -/
theorem comesTo_of_loopEnds (moves : step ≠ 0) {ending : Outcome (List Value)}
    (ends : LoopEnds interpreter span name body start.toInt step.toInt
      (Range.rounds start.toInt stop.toInt step.toInt) first ending) :
    ComesTo (fun fuel => Run.stamped span (Expr.forTurns interpreter name body fuel fuel
      (.int (some start) stop step, []))) first ending := by
  cases ends with
  | value rounds =>
    obtain ⟨enough, same⟩ := forTurns_of_rounds moves rounds le_rfl
    refine ⟨enough + Range.rounds start.toInt stop.toInt step.toInt + 1, fun fuel more => ?_⟩
    obtain ⟨turns, turnsLeft⟩ :
        ∃ turns, fuel = Range.rounds start.toInt stop.toInt step.toInt + (turns + 1) :=
      ⟨fuel - Range.rounds start.toInt stop.toInt step.toInt - 1, by omega⟩
    have reached := same fuel (by omega) (turns + 1)
    rw [← turnsLeft, Expr.forTurns_succ,
      Expr.forTurn_ended (Range.ended_after_rounds start stop moves),
      List.reverse_reverse] at reached
    show Run.stamped span (Expr.forTurns _ _ _ fuel fuel _) first = _
    rw [Run.stamped_apply, reached]
    rfl
  | @failure index values before after failure early rounds fails =>
    obtain ⟨enough, same⟩ := forTurns_of_rounds moves rounds early.le
    obtain ⟨word, exact, given⟩ := Range.given?_int moves early
    rw [← exact] at fails
    -- The failure of the turn, before the loop stamps it.
    obtain ⟨inside, enough', turned, stamped⟩ : ∃ inside enough', (∀ fuel, enough' ≤ fuel →
        Expr.forTurn interpreter (Expr.eval interpreter fuel) name body
          ((Range.int (some start) stop step).after index, values.reverse) before =
            .failure inside after) ∧ after.context.stamp span inside = failure := by
      cases fails with
      | @checkpoint failure _ stopped =>
        refine ⟨failure, 0, fun fuel _ => ?_, rfl⟩
        rw [Expr.forTurn_given (Range.next_after given), Run.bind_apply, stopped]
      | body starts fails =>
        have stamped := Context.stamp_of_comesTo fails span
        obtain ⟨enough', comes⟩ := fails
        refine ⟨failure, enough', fun fuel more => ?_, stamped⟩
        have answer : body.eval interpreter fuel _ = .failure failure after := comes fuel more
        rw [Expr.forTurn_of_starts (Range.next_after given) starts, Run.bind_apply, answer]
    refine ⟨enough + enough' + index + 1, fun fuel more => ?_⟩
    obtain ⟨turns, turnsLeft⟩ : ∃ turns, fuel = index + (turns + 1) := ⟨fuel - index - 1, by omega⟩
    have reached := same fuel (by omega) (turns + 1)
    rw [← turnsLeft, Expr.forTurns_succ, turned fuel (by omega)] at reached
    show Run.stamped span (Expr.forTurns _ _ _ fuel fuel _) first = _
    rw [Run.stamped_apply, reached]
    exact congrArg (Outcome.failure · after) stamped

/-- From every place that a loop gets to, it ends in one of the ways there are. The induction is on
the turns that are left; the rounds before them only grow. -/
theorem loopEnds_of_forTurns (moves : step ≠ 0) {fuel index turns : Nat} {values : List Value}
    {before : State} {ending : Outcome (List Value)}
    (rounds : Rounds interpreter name body start.toInt step.toInt first index values before)
    (within : index ≤ Range.rounds start.toInt stop.toInt step.toInt)
    (ended : Run.stamped span (Expr.forTurns interpreter name body fuel turns
      ((Range.int (some start) stop step).after index, values.reverse)) before = ending)
    (finished : ending ≠ .unfinished) :
    LoopEnds interpreter span name body start.toInt step.toInt
      (Range.rounds start.toInt stop.toInt step.toInt) first ending := by
  induction turns generalizing index values before with
  | zero => exact absurd ended.symm finished
  | succ turns inductionHypothesis =>
    rw [Run.stamped_apply, Expr.forTurns_succ] at ended
    rcases Nat.lt_or_eq_of_le within with early | rfl
    · obtain ⟨word, exact, given⟩ := Range.given?_int moves early
      rcases Expr.stops_or_starts interpreter name word before with
        ⟨failure, after, stopped⟩ | ⟨ready, starts⟩
      · rw [Expr.forTurn_given (Range.next_after given), Run.bind_apply, stopped] at ended
        subst ended
        exact .failure early rounds (.checkpoint stopped)
      · rw [Expr.forTurn_of_starts (Range.next_after given) starts, Run.bind_apply] at ended
        rw [exact] at starts
        cases evaluated : Expr.eval interpreter fuel body ready with
        | value value after =>
          have comes := Expr.comesTo_of_eval fuel evaluated nofun
          rw [evaluated] at ended
          refine inductionHypothesis (.more rounds starts comes) early ?_
          rw [List.reverse_append]
          exact ended
        | failure failure after =>
          have comes := Expr.comesTo_of_eval fuel evaluated nofun
          rw [evaluated] at ended
          have stamped : Outcome.failure (after.context.stamp span failure) after = ending := ended
          rw [← stamped, Context.stamp_of_comesTo comes span]
          exact .failure early rounds (.body starts comes)
        | unfinished =>
          rw [evaluated] at ended
          exact absurd ended.symm finished
    · rw [Expr.forTurn_ended (Range.ended_after_rounds start stop moves),
        List.reverse_reverse] at ended
      subst ended
      exact .value rounds

end Loop

/-! ### Whole loops -/

/-- Whether the bounds of a counting loop come to integers, the step being one if there is none, and
in which state the loop is then. -/
def State.BoundsKnown (state : State) (interpreter : Interpreter) (loop : Expr) (start stop : Expr)
    (step : Option Expr) (first last stride : Int64) (stepped : State) : Prop :=
  ∃ (started stopped : State) (given : Option Value),
    ComesTo (fun fuel => start.eval interpreter fuel)
      (state.record (.visited state.context loop)) (.value (.int first) started) ∧
    ComesTo (fun fuel => stop.eval interpreter fuel) started (.value (.int last) stopped) ∧
    ComesTo (fun fuel => Expr.evaluateOptional (Expr.eval interpreter fuel) step) stopped
      (.value given stepped) ∧
    given.getD (.int 1) = .int stride

section Node

variable {start stop : Expr} {step : Option Expr} {state stepped : State}
  {first last stride : Int64}

/-- How a counting loop ends whose turns have ended so: the values are put into an array. -/
def Outcome.collected (name : String) : Outcome (List Value) → Outcome Value
  | .value values left => Run.newArray values (left.record (.forFinished name values.length))
  | .failure reason after => .failure reason after
  | .unfinished => .unfinished

/-- A counting loop whose bounds have come to integers is its turns, and then the array of their
values. -/
theorem Expr.eval_forLoop
    (bounds : state.BoundsKnown interpreter (.forLoop span name start stop step body) start stop
      step first last stride stepped) :
    ∃ enough, ∀ fuel, enough ≤ fuel →
      (forLoop span name start stop step body).eval interpreter (fuel + 1) state =
        (Run.stamped span
          (forTurns interpreter name body fuel fuel (.int (some first) last stride, []))
            stepped).collected name := by
  obtain ⟨started, stopped, given, ⟨enough, starts⟩, ⟨enough', stops⟩, ⟨enough'', steps⟩, known⟩ :=
    bounds
  refine ⟨max enough (max enough' enough''), fun fuel more => ?_⟩
  have startValue : start.eval interpreter fuel _ = _ := starts fuel (by omega)
  have stopValue : stop.eval interpreter fuel _ = _ := stops fuel (by omega)
  have stepValue : evaluateOptional (eval interpreter fuel) step _ = _ := steps fuel (by omega)
  have inside : evaluateNode interpreter fuel (eval interpreter fuel)
      (forLoop span name start stop step body)
      (state.record (.visited state.context (forLoop span name start stop step body))) = (do
        let values ← forTurns interpreter name body fuel fuel (.int (some first) last stride, [])
        Run.record (.forFinished name values.length)
        Run.newArray values : Run Value) stepped := by
    rw [evaluateNode, Run.bind_apply, startValue]
    dsimp only
    rw [Run.bind_apply, stopValue]
    dsimp only
    rw [Run.bind_apply, stepValue]
    dsimp only
    rw [Range.ofBounds_int first last known]
    rfl
  rw [eval_succ, visit_apply, inside, Run.bind_apply, Run.stamped_apply]
  cases forTurns interpreter name body fuel fuel (.int (some first) last stride, []) stepped <;> rfl

/-- What a whole loop comes to is what its rounds come to, with the values in an array. -/
theorem comesTo_forLoop_iff (moves : stride ≠ 0)
    (bounds : state.BoundsKnown interpreter (.forLoop span name start stop step body) start stop
      step first last stride stepped) (ending : Outcome Value) (finished : ending ≠ .unfinished) :
    ComesTo (fun fuel => (Expr.forLoop span name start stop step body).eval interpreter fuel) state
        ending ↔
      ∃ inner, LoopEnds interpreter span name body first.toInt stride.toInt
        (Range.rounds first.toInt last.toInt stride.toInt) stepped inner ∧
          inner.collected name = ending := by
  obtain ⟨enough, same⟩ := Expr.eval_forLoop bounds
  constructor
  · rintro ⟨enough', comes⟩
    have ended : (Expr.forLoop span name start stop step body).eval interpreter
        (max enough enough' + 1) state = ending := comes _ (by omega)
    rw [same _ (le_max_left _ _)] at ended
    refine ⟨_, loopEnds_of_forTurns moves .none (Nat.zero_le _) rfl fun stuck => finished ?_, ended⟩
    rw [← ended]
    show Outcome.collected name _ = .unfinished
    exact congrArg (Outcome.collected name) stuck
  · rintro ⟨inner, ends, rfl⟩
    obtain ⟨enough', comes⟩ := comesTo_of_loopEnds moves ends
    refine ⟨max enough enough' + 1, fun fuel more => ?_⟩
    obtain ⟨less, rfl⟩ : ∃ less, fuel = less + 1 := ⟨fuel - 1, by omega⟩
    exact (same less (by omega)).trans (congrArg (Outcome.collected name) (comes less (by omega)))

/-- A counting loop whose bounds come to integers, with a step that is not zero, runs its body once
for every number of its range, in order, whatever the body does and under all limits: as many times
as distance and step say. Each round starts in the bindings that the one before has left, with the
name bound to its number. If the loop comes to a value, that is an array of the values that the body
has come to, one for every round; and if it fails, it does so in one of its rounds, after those
before it. It comes to a value whenever all rounds do. Without a round nothing is bound; and a name
that the body does not bind is the last number afterwards. -/
theorem for_loop_runs_once_per_number (moves : stride ≠ 0)
    (bounds : state.BoundsKnown interpreter (.forLoop span name start stop step body) start stop
      step first last stride stepped) :
    let count := Range.rounds first.toInt last.toInt stride.toInt
    let loop := fun fuel => (Expr.forLoop span name start stop step body).eval interpreter fuel
    let rounds := Rounds interpreter name body first.toInt stride.toInt stepped
    (∀ number (before ready : State), before.StartsRound interpreter name number ready →
      ∃ word : Int64, word.toInt = number ∧
        ready.context = before.context.set name (.int word)) ∧
    (∀ result after, ComesTo loop state (.value result after) →
      ∃ values left, rounds count values left ∧ values.length = count ∧
        result.items? = some values ∧ after.context = left.context ∧
        (count = 0 → after.context = stepped.context) ∧
        (0 < count → ¬ body.Targets name → ∃ word : Int64,
          word.toInt = first.toInt + (count - 1 : Int) * stride.toInt ∧
            after.context.get? name = some (.int word))) ∧
    (∀ failure after, ComesTo loop state (.failure failure after) ↔
      ∃ index values before, index < count ∧ rounds index values before ∧
        values.length = index ∧ before.FailsRound interpreter span name body
          (first.toInt + index * stride.toInt) failure after) ∧
    ∀ values left, rounds count values left →
      ∃ result after, ComesTo loop state (.value result after) := by
  intro count loop rounds
  refine ⟨fun number before ready starts => starts.context_eq, fun result after comes => ?_,
    fun failure after => ⟨fun comes => ?_, ?_⟩, fun values left all => ?_⟩
  · obtain ⟨inner, ends, collected⟩ :=
      (comesTo_forLoop_iff moves bounds (.value result after) nofun).mp comes
    cases ends with
    | failure => cases collected
    | @value values left all =>
      cases collected
      refine ⟨values, left, all, all.length_values, Value.items?_ofItems _ _, rfl, fun none => ?_,
        all.get?_last⟩
      have nothing : Rounds interpreter name body first.toInt stride.toInt stepped 0 values left :=
        none ▸ all
      show left.context = stepped.context
      rw [nothing.left_eq]
  · obtain ⟨inner, ends, collected⟩ :=
      (comesTo_forLoop_iff moves bounds (.failure failure after) nofun).mp comes
    cases ends with
    | value => cases collected
    | @failure index values before _ _ early earlier fails =>
      cases collected
      exact ⟨index, values, before, early, earlier, earlier.length_values, fails⟩
  · rintro ⟨index, values, before, early, earlier, -, fails⟩
    exact (comesTo_forLoop_iff moves bounds (.failure failure after) nofun).mpr
      ⟨_, .failure early earlier fails, rfl⟩
  · obtain ⟨result, after, collected⟩ :
        ∃ result after, (Outcome.value values left).collected name = .value result after :=
      ⟨_, _, rfl⟩
    exact ⟨result, after, (comesTo_forLoop_iff moves bounds (.value result after) nofun).mpr
      ⟨_, .value all, collected⟩⟩

end Node

/-- A body that binds the name of its loop, and the name that the end was computed from, does not
keep the loop from going round three times. -/
theorem loop_runs_on_whatever_its_body_binds :
    let literal (value : Int64) : Expr := .number ⟨0, 1⟩ (.int value)
    let body : Expr :=
      .array ⟨0, 1⟩ [.assign ⟨0, 1⟩ "i" (literal 9), .assign ⟨0, 1⟩ "n" (literal 0)]
    let loop : Expr := .forLoop ⟨0, 1⟩ "i" (literal 0) (.lookup ⟨0, 1⟩ "n") none body
    let interpreter : Interpreter := .ofLimits .standard
    let state : State := .initial ((Context.root "main").set "n" (.int 3))
    ∃ result after values, ComesTo (fun fuel => loop.eval interpreter fuel) state
        (.value result after) ∧ result.items? = some values ∧ values.length = 3 := by
  intro literal body loop interpreter state
  have bounds : state.BoundsKnown interpreter loop (literal 0) (.lookup ⟨0, 1⟩ "n") none 0 3 1 _ :=
    ⟨_, _, none, Expr.comesTo_of_eval 1 rfl nofun, Expr.comesTo_of_eval 1 rfl nofun,
      ⟨0, fun _ _ => rfl⟩, rfl⟩
  have ended : (loop.eval interpreter 5 state).after?.isSome := by decide +kernel
  have faultless : (loop.eval interpreter 5 state).fault?.isNone := by decide +kernel
  obtain ⟨-, array, -⟩ := for_loop_runs_once_per_number (by decide) bounds
  cases evaluated : loop.eval interpreter 5 state with
  | value result after =>
    have comes := Expr.comesTo_of_eval 5 evaluated nofun
    obtain ⟨values, left, -, length, items, -⟩ := array result after comes
    exact ⟨result, after, values, comes, items, length.trans (by decide +kernel)⟩
  | failure =>
    rw [evaluated] at faultless
    cases faultless
  | unfinished =>
    rw [evaluated] at ended
    cases ended

end Treewalk

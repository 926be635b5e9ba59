/-
This file proves that the step count of an evaluation can be checked against its log.

A checkpoint counts a step and writes no line. The lines come elsewhere: for a call when its node is
visited, and for the rounds of a loop all at once when the loop has come to its end. So at most
moments the log shows more or fewer steps than were taken, and the content here is that the two
are even whenever a node has its value. Every part of an evaluation is given what it still owes to
the log (`Run.Owes`): the visit of a call is paid in advance, a checkpoint owes one step, the rounds
of a loop owe one step each until the line at the end of the loop pays for all of them. All other
parts of nodes owe nothing (`Run.Owes.sequential`).

The count stays at the greatest machine word once it is there, so it is the number of steps capped
at that.

For the budget nothing has to be counted: no step beyond it is ever survived
(`Comparison.withinBudget`).
-/
import Treewalk.Proofs.Comparison

namespace Treewalk

variable {Result Other Loop : Type}

/-! ### The steps that a log shows -/

/-- How many steps the line of an event stands for: one for a node that is a call, one for every
round of a counting loop, and one for every time that the condition of a conditional loop was looked
at, which is once more than the loop went round. -/
def Event.shownSteps : Event → Nat
  | .visited _ node => if node.kind = "Call" then 1 else 0
  | .forFinished _ rounds => rounds
  | .whileFinished rounds => rounds + 1
  | _ => 0

/-- How many steps the lines of a journal stand for. -/
def Journal.shownSteps : Journal → Nat
  | [] => 0
  | event :: earlier => event.shownSteps + shownSteps earlier

theorem Journal.shownSteps_append (later earlier : Journal) :
    shownSteps (later ++ earlier) = shownSteps later + shownSteps earlier := by
  induction later with
  | nil => exact (Nat.zero_add _).symm
  | cons event later inductionHypothesis =>
    show event.shownSteps + shownSteps (later ++ earlier) =
      event.shownSteps + shownSteps later + shownSteps earlier
    omega

/-! ### What a run owes to the log -/

/-- Whether a run, when it comes to a result, has taken as many steps as its lines show and as many
more as it still owes. What is paid in advance is owed with a minus. -/
def Run.Owes (due : Result → Int) (run : Run Result) : Prop :=
  ∀ state result after, run state = .value result after → state.steps ≤ State.maxSteps →
    ∃ added taken, after.journal = added ++ state.journal ∧
      after.steps = min (state.steps + taken) State.maxSteps ∧
      (taken : Int) = Journal.shownSteps added + due result

/-- Whether a run owes nothing. -/
abbrev Run.Even (run : Run Result) : Prop := run.Owes fun _ => 0

namespace Run.Owes

theorem pure (result : Result) {due : Result → Int} (nothing : due result = 0) :
    Owes due (Pure.pure result) := by
  intro state other after ended bounded
  cases ended
  exact ⟨[], 0, rfl, (Nat.min_eq_left bounded).symm, by rw [nothing]; rfl⟩

theorem raise (fault : Fault) {due : Result → Int} : Owes due (Run.raise fault) :=
  fun _ _ _ ended => by cases ended

theorem unfinished {due : Result → Int} : Owes due Run.unfinished := fun _ _ _ ended => by
  cases ended

/-- A run that takes no step and writes at most one event, which pays for what it shows. -/
theorem ofStill {run : Run Result} {due : Result → Int}
    (still : ∀ state result after, run state = .value result after → after.steps = state.steps ∧
      ((after.journal = state.journal ∧ due result = 0) ∨
        ∃ event, after.journal = event :: state.journal ∧ due result = -event.shownSteps)) :
    Owes due run := by
  intro state result after ended bounded
  obtain ⟨steps, same | ⟨event, written, paid⟩⟩ := still state result after ended
  · exact ⟨[], 0, same.1, by omega, by rw [same.2]; rfl⟩
  · refine ⟨[event], 0, written, by omega, ?_⟩
    show ((0 : Nat) : Int) = ((event.shownSteps + 0 : Nat) : Int) + due result
    omega

theorem record (event : Event) : Owes (fun _ => -event.shownSteps) (Run.record event) :=
  ofStill fun _ _ _ ended => by
    cases ended
    exact ⟨rfl, .inr ⟨event, rfl, rfl⟩⟩

/-- The line of a visited node is written before anything is done for the node. -/
theorem enter (node : Expr) :
    Owes (fun _ => -(if node.kind = "Call" then 1 else 0 : Nat)) (Run.enter node) :=
  ofStill fun state _ _ ended => by
    cases ended
    exact ⟨rfl, .inr ⟨.visited state.context node, rfl, rfl⟩⟩

theorem assign (name : String) (value : Value) : Even (Run.assign name value) :=
  ofStill fun state _ _ ended => by
    cases ended
    exact ⟨rfl, .inr ⟨.bound state.context name value, rfl, rfl⟩⟩

theorem lookup (name : String) : Even (Run.lookup name) :=
  ofStill fun state result after ended => by
    rw [Run.lookup_apply] at ended
    split at ended
    · cases ended
      exact ⟨rfl, .inl ⟨rfl, rfl⟩⟩
    · cases ended

theorem newObject : Even Run.newObject :=
  ofStill fun _ _ _ ended => by
    cases ended
    exact ⟨rfl, .inl ⟨rfl, rfl⟩⟩

/-- A checkpoint that is passed has counted a step. -/
theorem checkpoint (interpreter : Interpreter) : Owes (fun _ => 1) interpreter.checkpoint := by
  intro state result after ended bounded
  have counted : after = state.counted := by
    rw [Interpreter.checkpoint_apply] at ended
    split at ended
    · cases ended
    · split at ended
      · cases ended
        rfl
      · split at ended <;> cases ended
        rfl
  subst counted
  exact ⟨[.stepped (min (state.steps + 1) State.maxSteps)], 1, rfl, rfl, rfl⟩

/-- What two runs owe, one after the other, is what they owe together. -/
theorem bind {first : Run Result} {next : Result → Run Other} {due : Result → Int}
    (dueNext : Result → Other → Int) {total : Other → Int} (start : first.Owes due)
    (rest : ∀ result, (next result).Owes (dueNext result))
    (sum : ∀ result other, due result + dueNext result other = total other) :
    (first >>= next).Owes total := by
  intro state other last ended bounded
  obtain ⟨result, middle, ending, ended⟩ := bind_eq_value ended
  obtain ⟨added, taken, journal, steps, owed⟩ := start state result middle ending bounded
  obtain ⟨added', taken', journal', steps', owed'⟩ :=
    rest result middle other last ended (by omega)
  refine ⟨added' ++ added, taken + taken', ?_, by omega, ?_⟩
  · rw [journal', journal, List.append_assoc]
  · have total := sum result other
    rw [Journal.shownSteps_append]
    omega

/-- A run that is even leaves all that is owed to what comes after it. -/
theorem afterEven {first : Run Result} {next : Result → Run Other} {due : Other → Int}
    (start : first.Even) (rest : ∀ result, (next result).Owes due) : (first >>= next).Owes due :=
  bind (fun _ => due) start rest fun _ other => Int.zero_add (due other)

/-- After a checkpoint one step less is owed. -/
theorem afterCheckpoint (interpreter : Interpreter) {next : Unit → Run Other} {due : Other → Int}
    (rest : ∀ passed, (next passed).Owes fun other => due other - 1) :
    (interpreter.checkpoint >>= next).Owes due :=
  bind _ (checkpoint interpreter) rest fun _ other => by omega

theorem newArray (items : List Value) : Even (Run.newArray items) :=
  afterEven newObject fun _ => pure _ rfl

/-- What is done around a run may write lines, as long as they show no steps. -/
theorem wrapped {inner : Run Result} {due : Result → Int} {start : State → State}
    {mark : State → Failure → Failure} {finish : State → State → State} (owes : inner.Owes due)
    (started : ∀ state, (start state).steps = state.steps ∧
      ∃ before, (start state).journal = before ++ state.journal ∧ Journal.shownSteps before = 0)
    (finished : ∀ state last, (finish state last).steps = last.steps ∧
      ∃ behind, (finish state last).journal = behind ++ last.journal ∧
        Journal.shownSteps behind = 0) :
    Owes due (Run.wrapped start mark finish inner) := by
  intro state result after ended bounded
  obtain ⟨last, ending, rfl⟩ := wrapped_eq_value ended
  obtain ⟨same, before, front, nothing⟩ := started state
  obtain ⟨same', behind, back, nothing'⟩ := finished state last
  obtain ⟨added, taken, journal, steps, owed⟩ := owes _ result last ending (by omega)
  refine ⟨behind ++ (added ++ before), taken, ?_, by omega, ?_⟩
  · rw [back, journal, front, List.append_assoc, List.append_assoc]
  · rw [Journal.shownSteps_append, Journal.shownSteps_append]
    omega

theorem stamped (span : Span) {inner : Run Result} {due : Result → Int} (owes : inner.Owes due) :
    Owes due (Run.stamped span inner) :=
  owes.wrapped (fun _ => ⟨rfl, [], rfl, rfl⟩) fun _ _ => ⟨rfl, [], rfl, rfl⟩

theorem inFrame (name : String) (entry : Span) {inner : Run Result} {due : Result → Int}
    (owes : inner.Owes due) : Owes due (Run.inFrame name entry inner) :=
  owes.wrapped (fun _ => ⟨rfl, [], rfl, rfl⟩) fun _ _ => ⟨rfl, [], rfl, rfl⟩

theorem between (function : String) (args : Nat) {inner : Run Result} {due : Result → Int}
    (owes : inner.Owes due) :
    Owes due (Run.between (.callEntered function args) (.callLeft function args) inner) :=
  owes.wrapped (fun _ => ⟨rfl, [.callEntered function args], rfl, rfl⟩)
    fun _ _ => ⟨rfl, [.callLeft function args], rfl, rfl⟩

theorem descend (interpreter : Interpreter) {inner : Run Result} {due : Result → Int}
    (owes : inner.Owes due) : Owes due (interpreter.descend inner) := by
  intro state result after ended
  rw [Interpreter.descend_apply] at ended
  split at ended
  · cases ended
  · exact owes state result after ended

/-- What a loop owes grows with what it carries along. A round adds to it, and the last one fixes
what the result stands for. -/
theorem iterate (turn : Loop → Run (Turn Loop Result)) (carried : Loop → Int) (due : Result → Int)
    (turns : ∀ loop, (turn loop).Owes fun
      | .again next => carried next - carried loop
      | .done result => due result - carried loop)
    (rounds : Nat) (loop : Loop) :
    Owes (fun result => due result - carried loop) (Run.iterate turn rounds loop) := by
  induction rounds generalizing loop with
  | zero => exact unfinished
  | succ rounds inductionHypothesis =>
    rw [iterate_succ]
    refine bind
      (fun
        | .again next => fun result => due result - carried next
        | .done last => fun result => due result - due last)
      (turns loop) (fun turned => ?_) fun turned result => ?_
    · cases turned with
      | again next => exact inductionHypothesis next
      | done last => exact pure last (Int.sub_self (due last))
    · cases turned <;> dsimp only <;> omega

/-! ### Nodes -/

variable {evaluate : Expr → Run Value}

/-- Runs that owe nothing, one after the other, owe nothing. -/
def sequential : Sequential where
  related run _ := run.Even
  done result := pure result rfl
  next := afterEven
  raise fault _ := raise fault
  newObject := newObject

/-- A call owes the step of its checkpoint. -/
theorem callFunction (interpreter : Interpreter) (nodes : ∀ node, (evaluate node).Even)
    (function : Function) (args : List Value) (span : Span) :
    Owes (fun _ => 1) (interpreter.callFunction evaluate function args span) := by
  rw [Interpreter.callFunction_eq]
  have body : (Interpreter.enterBody evaluate function args span).Even := by
    unfold Interpreter.enterBody
    split
    · exact raise _
    · exact inFrame _ _ (afterEven (sequential.assignAll assign _ _) fun _ => nodes _)
  exact between _ _ (afterCheckpoint interpreter fun _ => descend interpreter body)

/-- The rounds of a counting loop owe a step each. -/
theorem forRounds (interpreter : Interpreter) (nodes : ∀ node, (evaluate node).Even)
    (name : String) (body : Expr) (rounds : Nat) (range : Range) :
    Owes (fun values => values.length)
      (Run.iterate (Expr.forTurn interpreter evaluate name body) rounds (range, [])) := by
  have looped := iterate (Expr.forTurn interpreter evaluate name body)
    (fun loop => loop.2.length) (fun values => values.length) (fun loop => ?_) rounds (range, [])
  · simpa using looped
  · obtain ⟨range, values⟩ := loop
    dsimp only [Expr.forTurn]
    rcases range.next with ⟨_ | current, rest⟩
    · exact pure _ (by simp)
    · refine afterCheckpoint interpreter fun _ => afterEven (assign name (.number current))
        fun _ => afterEven (nodes body) fun value => pure _ ?_
      show ((value :: values).length : Int) - values.length - 1 = 0
      rw [List.length_cons]
      omega

/-- So do those of a conditional loop, and there is one more step for the last look at the
condition. -/
theorem whileRounds (interpreter : Interpreter) (nodes : ∀ node, (evaluate node).Even)
    (condition body : Expr) (rounds : Nat) :
    Owes (fun values => values.length + 1)
      (Run.iterate (Expr.whileTurn interpreter evaluate condition body) rounds []) := by
  have looped := iterate (Expr.whileTurn interpreter evaluate condition body)
    (fun values => values.length) (fun values => values.length + 1) (fun values => ?_) rounds []
  · simpa using looped
  · refine afterCheckpoint interpreter fun _ => afterEven (nodes condition) fun value => ?_
    split
    · refine afterEven (nodes body) fun value => pure _ ?_
      show ((value :: values).length : Int) - values.length - 1 = 0
      rw [List.length_cons]
      omega
    · refine pure _ ?_
      show (values.reverse.length + 1 : Int) - values.length - 1 = 0
      rw [List.length_reverse]
      omega

/-- The line at the end of a loop pays for its rounds. -/
theorem finish (event : List Value → Event) {rounds : Run (List Value)}
    (owes : rounds.Owes fun values => (event values).shownSteps) :
    Even (rounds >>= fun values => Run.record (event values) >>= fun _ => Run.newArray values) :=
  bind _ owes (fun values => bind _ (record (event values)) (fun _ => newArray values)
    fun _ _ => Int.add_zero _) fun _ _ => Int.add_right_neg _

/-- Loops owe nothing in the end. -/
theorem loops (interpreter : Interpreter) (rounds : Nat) (nodes : ∀ node, (evaluate node).Even) :
    sequential.simulation.Loops interpreter interpreter rounds rounds evaluate evaluate where
  forLoop {name body _} _ range _ _ :=
    Sequential.simulated (finish (fun values => .forFinished name values.length)
      (forRounds interpreter nodes name body rounds range)) fun _ => rfl
  whileLoop {condition _ body _} _ _ _ :=
    Sequential.simulated (finish (fun values => .whileFinished values.length)
      (whileRounds interpreter nodes condition body rounds)) fun _ => rfl

/-- A node owes what its own line shows in advance, which is a step when it is a call. -/
theorem evaluateNode (interpreter : Interpreter) (rounds : Nat)
    (nodes : ∀ node, (evaluate node).Even) (node : Expr) :
    Owes (fun _ => (if node.kind = "Call" then 1 else 0 : Nat))
      (Expr.evaluateNode interpreter rounds evaluate node) := by
  by_cases isCall : node.kind = "Call"
  · cases node with
    | call span callee args =>
      have given : sequential.related (Expr.evaluateAll evaluate args)
          (Expr.evaluateAll evaluate args) := sequential.evaluateAll nodes args
      refine afterEven (nodes callee) fun callee => afterEven given fun args => ?_
      cases callee with
      | function function => exact callFunction interpreter nodes function args span
      | number | string | array | void => exact raise _
    | _ => simp [Expr.kind] at isCall
  · rw [if_neg isCall]
    exact Sequential.related_of_simulated (Simulation.evaluateNode
      (sequential.corresponds nodes lookup assign node) (loops interpreter rounds nodes)
      (fun same => absurd same isCall) ()) fun _ _ => id

end Run.Owes

/-- At the end of the evaluation of a node its log shows the steps that were taken. -/
theorem Expr.eval_even (interpreter : Interpreter) (fuel : Nat) (node : Expr) :
    (eval interpreter fuel node).Even := by
  induction fuel generalizing node with
  | zero => exact .unfinished
  | succ fuel inductionHypothesis =>
    rw [eval_succ, visit_eq]
    exact .stamped _ (.bind _ (.enter node)
      (fun _ => .evaluateNode interpreter fuel inductionHypothesis node)
      fun _ _ => Int.add_left_neg _)

/-! ### The budget -/

/-- Whether a run that may take a number of steps has kept to it. The only other end is that one
step more was counted and that the run failed for that. -/
def Outcome.WithinBudget (budget : Nat) : Outcome Result → Prop
  | value _ after => after.steps ≤ budget
  | failure reason after =>
    (after.steps ≤ budget ∧ ∀ spent, reason.fault ≠ .budgetExceeded spent) ∨
      (after.steps = budget + 1 ∧ reason.fault = .budgetExceeded budget)
  | unfinished => True

/-- Whether a run keeps to a budget. -/
def Run.KeepsBudget (budget : Nat) (run : Run Result) : Prop :=
  ∀ state, state.steps ≤ budget → (run state).WithinBudget budget

namespace Run.KeepsBudget

variable {budget : Nat}

theorem raise {fault : Fault} (within : ∀ spent, fault ≠ .budgetExceeded spent) :
    KeepsBudget budget (Run.raise fault : Run Result) :=
  fun _ few => .inl ⟨few, within⟩

theorem bind {first : Run Result} {next : Result → Run Other} (start : first.KeepsBudget budget)
    (rest : ∀ result, (next result).KeepsBudget budget) : (first >>= next).KeepsBudget budget := by
  intro state few
  have kept := start state few
  rw [bind_apply]
  cases ending : first state with
  | value result middle =>
    rw [ending] at kept
    exact rest result middle kept
  | failure failure middle =>
    rw [ending] at kept
    exact kept
  | unfinished => trivial

theorem wrapped {inner : Run Result} {start : State → State} {mark : State → Failure → Failure}
    {finish : State → State → State} (keeps : inner.KeepsBudget budget)
    (started : ∀ state, (start state).steps = state.steps)
    (marked : ∀ last failure, (mark last failure).fault = failure.fault)
    (finished : ∀ state last, (finish state last).steps = last.steps) :
    (Run.wrapped start mark finish inner).KeepsBudget budget := by
  intro state few
  have kept := keeps (start state) (by rw [started]; exact few)
  rw [wrapped_apply]
  cases ending : inner (start state) with
  | value result last =>
    rw [ending] at kept
    exact Nat.le_trans (Nat.le_of_eq (finished state last)) kept
  | failure failure last =>
    rw [ending] at kept
    show (_ ∧ _) ∨ _
    rw [finished, marked]
    exact kept
  | unfinished => trivial

/-- A checkpoint is where the budget is looked at. That the count stays at the greatest machine word
does no harm here: it can only keep the count below the budget. -/
theorem checkpoint {interpreter : Interpreter}
    (bounded : interpreter.limits.budget = some budget) :
    interpreter.checkpoint.KeepsBudget budget := by
  intro state few
  rw [Interpreter.checkpoint_apply, bounded]
  split
  · exact .inl ⟨few, fun _ same => by cases same⟩
  · have count : state.counted.steps = min (state.steps + 1) State.maxSteps := rfl
    dsimp only
    split
    · refine .inr ⟨?_, rfl⟩
      show state.counted.steps = budget + 1
      omega
    · show state.counted.steps ≤ budget
      omega

theorem descend (interpreter : Interpreter) {inner : Run Result}
    (keeps : inner.KeepsBudget budget) : (interpreter.descend inner).KeepsBudget budget := by
  intro state few
  rw [Interpreter.descend_apply]
  split
  · exact raise (fun _ same => by cases same) state few
  · exact keeps state few

end Run.KeepsBudget

/-- An interpreter with a budget, compared with nothing else. -/
def Comparison.withinBudget {interpreter : Interpreter} {budget : Nat}
    (bounded : interpreter.limits.budget = some budget) :
    Comparison interpreter interpreter where
  related run _ := run.KeepsBudget budget
  starve keeps := keeps
  unfinished := fun _ _ => trivial
  done _ := fun _ few => few
  next := .bind
  raise fault program := .raise fun spent same => by rw [same] at program; cases program
  record _ := fun _ few => few
  enter _ := fun _ few => few
  lookup name := fun state few => by
    rw [Run.lookup_apply]
    cases state.context.get? name with
    | none => exact .inl ⟨few, fun _ same => by cases same⟩
    | some value => exact few
  assign _ _ := fun _ few => few
  newObject := fun _ few => few
  checkpoint := .checkpoint bounded
  descend keeps := keeps.descend interpreter
  stamped span keeps := keeps.wrapped (fun _ => rfl)
    (fun last failure => last.context.fault_stamp span failure) fun _ _ => rfl
  between _ _ keeps := keeps.wrapped (fun _ => rfl) (fun _ _ => rfl) fun _ _ => rfl
  inFrame _ _ keeps := keeps.wrapped (fun _ => rfl) (fun _ _ => rfl) fun _ _ => rfl

/-! ### Evaluation -/

/-- When a program has its value, the steps that were taken are those that the log shows, capped at
the greatest machine word: one for every call that was visited, one for every round of a counting
loop and one more than there were rounds for every conditional loop, whatever frame they were in
and whatever was counted before. On a budget, a program fails for the budget exactly when one step
more was counted than it has, and at any other end there are no more steps than it has. -/
theorem steps_agree_with_log (interpreter : Interpreter) (fuel : Nat) (program : Expr)
    (state : State) :
    (∀ value after, interpreter.evaluate fuel program state = .value value after →
      ∃ added, after.journal = added ++ state.journal ∧
        after.steps = min (Journal.shownSteps added) State.maxSteps) ∧
    ∀ budget, interpreter.limits.budget = some budget →
      ∀ after, (interpreter.evaluate fuel program state).after? = some after →
        ((∃ failure, interpreter.evaluate fuel program state = .failure failure after ∧
            failure.fault = .budgetExceeded budget) ↔ after.steps = budget + 1) ∧
          (after.steps ≠ budget + 1 → after.steps ≤ budget) := by
  constructor
  · intro value after ended
    obtain ⟨added, taken, journal, steps, owed⟩ := program.eval_even interpreter fuel
      { state with steps := 0 } value after ended (Nat.zero_le _)
    have even : taken = Journal.shownSteps added := by
      have paid : (taken : Int) = Journal.shownSteps added + 0 := owed
      omega
    refine ⟨added, journal, ?_⟩
    rw [steps, even]
    exact congrArg (min · State.maxSteps) (Nat.zero_add _)
  · intro budget bounded after left
    have kept : (interpreter.evaluate fuel program state).WithinBudget budget :=
      (Comparison.withinBudget bounded).eval_same fuel program { state with steps := 0 }
        (Nat.zero_le _)
    cases ending : interpreter.evaluate fuel program state with
    | value value last =>
      rw [ending] at kept left
      cases left
      have few : after.steps ≤ budget := kept
      exact ⟨⟨fun ⟨_, failed, _⟩ => (nomatch failed), fun beyond => by omega⟩, fun _ => few⟩
    | failure failure last =>
      rw [ending] at kept left
      cases left
      rcases kept with ⟨few, other⟩ | ⟨beyond, spent⟩
      · refine ⟨⟨?_, fun beyond => by omega⟩, fun _ => few⟩
        rintro ⟨_, same, spent⟩
        cases same
        exact absurd spent (other budget)
      · exact ⟨⟨fun _ => beyond, fun _ => ⟨failure, rfl, spent⟩⟩,
          fun differ => absurd beyond differ⟩
    | unfinished =>
      rw [ending] at left
      cases left

/-- A function that goes round a loop twice is called: three steps, which a budget of three admits
and a budget of two does not. -/
theorem loop_in_call_takes_three_steps :
    let program : Expr := .call ⟨0, 30⟩ (.define ⟨0, 28⟩ none [] 0
      (.forLoop ⟨5, 28⟩ "i" (.number ⟨9, 10⟩ (.int 0)) (.number ⟨11, 12⟩ (.int 2)) none
        (.lookup ⟨20, 21⟩ "i"))) []
    let state : State := ⟨.root Context.programName, 7, 0, []⟩
    let ample : Interpreter := .ofLimits (.bounded 4 3)
    let scarce : Interpreter := .ofLimits (.bounded 4 2)
    (∃ value after added, ample.evaluate 5 program state = .value value after ∧
      after.journal = added ++ state.journal ∧ after.steps = 3 ∧
      after.steps = min (Journal.shownSteps added) State.maxSteps) ∧
    ∃ failure after, scarce.evaluate 5 program state = .failure failure after ∧
      after.steps = 3 ∧ failure.fault = .budgetExceeded 2 := by
  intro program state ample scarce
  constructor
  · have three : (match ample.evaluate 5 program state with
        | .value _ after => some after.steps
        | _ => none) = some 3 := by decide +kernel
    cases ending : ample.evaluate 5 program state with
    | value value after =>
      rw [ending] at three
      obtain ⟨added, journal, steps⟩ :=
        (steps_agree_with_log ample 5 program state).1 value after ending
      exact ⟨value, after, added, rfl, journal, Option.some.inj three, steps⟩
    | failure | unfinished =>
      rw [ending] at three
      cases three
  · have three : (scarce.evaluate 5 program state).after?.map State.steps = some 3 := by
      decide +kernel
    obtain ⟨after, left, steps⟩ := Option.map_eq_some_iff.mp three
    obtain ⟨failure, failed, spent⟩ :=
      ((steps_agree_with_log scarce 5 program state).2 2 rfl after left).1.mpr steps
    exact ⟨failure, after, failed, steps, spent⟩

end Treewalk

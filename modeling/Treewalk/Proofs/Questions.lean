/-
The evaluation of a node asks how other nodes are evaluated: its children, and the body of a
function that it calls. This file takes the questions apart from the answers.

A plan is a run that is open for how nodes are evaluated (`Plan`). It asks for the evaluation of a
node from a state when it cannot come to an end without an answer to that (`Plan.Asks`), and an
answer may be anything that an evaluation can come to. The content here is what becomes of a
failure: if a plan fails, then either it has failed by itself, and every answer it was given was a
value, or it has failed with the failure that some question was answered with
(`Plan.Traced.failure`). Nothing that was asked before matters, and nothing is asked afterwards.
-/
import Treewalk.Proofs.Fuel
import Treewalk.Proofs.Isolation

namespace Treewalk

variable {Result Other Loop : Type}

/-! ### Frames -/

/-- Whether two contexts are the same frame on top of the same callers. The bindings of that frame
may differ. -/
structure Context.SameFrame (context other : Context) : Prop where
  name : context.frame.name = other.frame.name
  entry : context.frame.entry = other.frame.entry
  callers : context.callers = other.callers

namespace Context.SameFrame

theorem refl (context : Context) : context.SameFrame context := ⟨rfl, rfl, rfl⟩

theorem trans {first second third : Context} (start : first.SameFrame second)
    (rest : second.SameFrame third) : first.SameFrame third :=
  ⟨start.name.trans rest.name, start.entry.trans rest.entry, start.callers.trans rest.callers⟩

end Context.SameFrame

/-- Whether a run is in the frame at its end that it was in when it started, however it ends. -/
def Run.StaysInFrame (run : Run Result) : Prop :=
  ∀ state after, (run state).after? = some after → after.context.SameFrame state.context

namespace Run.StaysInFrame

/-- A run of one step that does not open or close a frame. -/
theorem ofStill {run : Run Result} (still : ∀ state after, (run state).after? = some after →
    after.context = state.context) : run.StaysInFrame :=
  fun state after left => still state after left ▸ .refl _

theorem raise (fault : Fault) : (Run.raise fault : Run Result).StaysInFrame :=
  ofStill fun _ _ left => by
    cases left
    rfl

theorem lookup (name : String) : (Run.lookup name).StaysInFrame :=
  ofStill fun state after left => by
    rw [Run.lookup_apply] at left
    split at left <;> cases left <;> rfl

theorem assign (name : String) (value : Value) : (Run.assign name value).StaysInFrame := by
  intro state after left
  cases left
  exact ⟨rfl, rfl, rfl⟩

theorem checkpoint (interpreter : Interpreter) : interpreter.checkpoint.StaysInFrame :=
  ofStill (KeepsContext.checkpoint interpreter)

theorem bind {first : Run Result} {next : Result → Run Other} (start : first.StaysInFrame)
    (rest : ∀ result, (next result).StaysInFrame) : (first >>= next).StaysInFrame := by
  intro state after left
  rcases bind_leaves left with ⟨result, middle, given, left⟩ | ⟨failure, failed⟩
  · exact (rest result middle after left).trans
      (start state middle (congrArg Outcome.after? given))
  · exact start state after (congrArg Outcome.after? failed)

theorem wrapped {inner : Run Result} {start : State → State} {mark : State → Failure → Failure}
    {finish : State → State → State}
    (stays : ∀ state last, (inner (start state)).after? = some last →
      (finish state last).context.SameFrame state.context) :
    (Run.wrapped start mark finish inner).StaysInFrame := by
  intro state after left
  obtain ⟨last, inside, rfl⟩ := wrapped_leaves left
  exact stays state last inside

theorem descend (interpreter : Interpreter) {inner : Run Result} (stays : inner.StaysInFrame) :
    (interpreter.descend inner).StaysInFrame := by
  intro state after left
  rw [Interpreter.descend_apply] at left
  split at left
  · exact raise _ state after left
  · exact stays state after left

end Run.StaysInFrame

/-- An interpreter compared with nothing else, for the frames that it leaves. -/
def Comparison.frame (interpreter : Interpreter) : Comparison interpreter interpreter where
  related run _ := run.StaysInFrame
  starve stays := stays
  unfinished := fun _ _ left => by cases left
  done _ := .ofStill fun _ _ left => by cases left; rfl
  next := .bind
  raise fault _ := .raise fault
  record _ := .ofStill fun _ _ left => by cases left; rfl
  enter _ := .ofStill fun _ _ left => by cases left; rfl
  lookup := .lookup
  assign := .assign
  newObject := .ofStill fun _ _ left => by cases left; rfl
  checkpoint := .checkpoint interpreter
  descend stays := stays.descend interpreter
  stamped _ stays := .wrapped fun state last left => stays state last left
  between function args stays := .wrapped fun state last left =>
    stays (state.record (.callEntered function args)) last left
  inFrame _ _ _ := .wrapped fun state _ _ => .refl state.context

theorem Expr.eval_staysInFrame (interpreter : Interpreter) (fuel : Nat) (node : Expr) :
    (eval interpreter fuel node).StaysInFrame :=
  (Comparison.frame interpreter).eval_same fuel node

theorem Expr.evaluateAll_staysInFrame (interpreter : Interpreter) (fuel : Nat)
    (nodes : List Expr) : (evaluateAll (eval interpreter fuel) nodes).StaysInFrame :=
  (Comparison.frame interpreter).evaluateAll
    (fun node => (Comparison.frame interpreter).eval_same fuel node) nodes

/-! ### Plans -/

/-- A run that is open for how nodes are evaluated. -/
abbrev Plan (Result : Type) : Type := (Expr → Run Value) → Run Result

/-- Whether a plan asks what a node comes to from a state: no matter what else is known of how nodes
are evaluated, without an answer to this the plan comes to no end. -/
def Plan.Asks (plan : Plan Result) (evaluate : Expr → Run Value) (state : State) (child : Expr)
    (start : State) : Prop :=
  ∀ less : Expr → Run Value, (∀ node, Run.Extends (evaluate node) (less node)) →
    less child start = .unfinished → plan less state = .unfinished

/-- The run that is only known where it comes to a value. -/
def Run.successes (run : Run Result) : Run Result := fun state =>
  match run state with
  | .value result after => .value result after
  | _ => .unfinished

theorem Run.successes_of_value {run : Run Result} {state after : State} {result : Result}
    (ended : run state = .value result after) : run.successes state = .value result after := by
  unfold successes
  rw [ended]

theorem Run.extends_successes (run : Run Result) : Extends run run.successes := by
  intro state
  unfold successes
  cases run state with
  | value result after => exact .inr rfl
  | failure | unfinished => exact .inl rfl

/-- What a plan asks for comes to a value, if the plan comes to an end on values alone. -/
theorem Plan.Asks.value {plan : Plan Result} {evaluate : Expr → Run Value} {state start : State}
    {child : Expr} (asks : plan.Asks evaluate state child start)
    (finished : plan (fun node => (evaluate node).successes) state ≠ .unfinished) :
    ∃ value last, evaluate child start = .value value last := by
  cases ending : evaluate child start with
  | value value last => exact ⟨value, last, rfl⟩
  | failure | unfinished =>
    refine absurd (asks _ (fun node => (evaluate node).extends_successes) ?_) finished
    unfold Run.successes
    rw [ending]

/-- What is known of a plan from a state. `place` says which nodes it may ask for, and from which
states. -/
structure Plan.Traced (evaluate : Expr → Run Value) (place : Expr → State → Prop)
    (plan : Plan Result) (state : State) : Prop where
  /-- Who knows less of how nodes are evaluated comes to the same end or to none. -/
  less : ∀ less : Expr → Run Value, (∀ node, Run.Extends (evaluate node) (less node)) →
    plan less state = .unfinished ∨ plan evaluate state = plan less state
  /-- For a value only values are needed. -/
  value : ∀ result after, plan evaluate state = .value result after →
    after.context.SameFrame state.context ∧
      plan (fun node => (evaluate node).successes) state = .value result after
  /-- A failure is the plan's own, for which only values are needed, or the answer to a question. -/
  failure : ∀ failure after, plan evaluate state = .failure failure after →
    ((∃ fault, failure = .ofFault fault) ∧ after.context.SameFrame state.context ∧
      plan (fun node => (evaluate node).successes) state = .failure failure after) ∨
    ∃ child start last, plan.Asks evaluate state child start ∧
      evaluate child start = .failure failure last ∧ place child start

namespace Plan.Traced

variable {evaluate : Expr → Run Value} {place : Expr → State → Prop} {state : State}

/-- A run that asks nothing. -/
theorem ofClosed {run : Run Result} (stays : run.StaysInFrame)
    (bare : ∀ failure after, run state = .failure failure after →
      ∃ fault, failure = .ofFault fault) : Traced evaluate place (fun _ => run) state where
  less _ _ := .inr rfl
  value result after ended := ⟨stays state after (by rw [ended]; rfl), ended⟩
  failure failure after ended :=
    .inl ⟨bare failure after ended, stays state after (by rw [ended]; rfl), ended⟩

/-- The plan that asks for a node and does nothing else. -/
theorem ask {child : Expr} (stays : (evaluate child).StaysInFrame) (here : place child state) :
    Traced evaluate place (fun evaluate => evaluate child) state where
  less less known := known child state
  value result after ended :=
    ⟨stays state after (by rw [ended]; rfl), Run.successes_of_value ended⟩
  failure failure after ended :=
    .inr ⟨child, state, after, fun _ _ unknown => unknown, ended, here⟩

/-- What a plan comes to for those who know less, if it comes to a value. -/
theorem value_of_less {plan : Plan Result} (traced : Traced evaluate place plan state)
    {result : Result} {after : State} (ended : plan evaluate state = .value result after)
    {less : Expr → Run Value} (below : ∀ node, Run.Extends (evaluate node) (less node)) :
    plan less state = .unfinished ∨ plan less state = .value result after :=
  (traced.less less below).imp_right fun same => same.symm.trans ended

/-- What is asked for first is asked for. -/
theorem asks_first {first : Plan Result} {next : Result → Plan Other} {child : Expr}
    {start : State} (asks : first.Asks evaluate state child start) :
    Plan.Asks (fun evaluate => first evaluate >>= fun result => next result evaluate) evaluate state
      child start := by
  intro less below unknown
  show (first less >>= fun result => next result less) state = .unfinished
  rw [Run.bind_apply, asks less below unknown]

/-- What is asked for later is asked for, if it comes to that. -/
theorem asks_next {first : Plan Result} {next : Result → Plan Other} {result : Result}
    {middle start : State} {child : Expr} (traced : Traced evaluate place first state)
    (ended : first evaluate state = .value result middle)
    (asks : (next result).Asks evaluate middle child start) :
    Plan.Asks (fun evaluate => first evaluate >>= fun result => next result evaluate) evaluate state
      child start := by
  intro less below unknown
  show (first less >>= fun result => next result less) state = .unfinished
  rcases traced.value_of_less ended below with stuck | same
  · rw [Run.bind_apply, stuck]
  · rw [Run.bind_apply, same]
    exact asks less below unknown

theorem bind {first : Plan Result} {next : Result → Plan Other}
    (start : Traced evaluate place first state)
    (rest : ∀ result middle, first evaluate state = .value result middle →
      middle.context.SameFrame state.context → Traced evaluate place (next result) middle) :
    Traced evaluate place (fun evaluate => first evaluate >>= fun result => next result evaluate)
      state := by
  refine ⟨fun less below => ?_, fun other last ended => ?_, fun failure last ended => ?_⟩
  · rw [Run.bind_apply, Run.bind_apply]
    rcases start.less less below with stuck | same
    · rw [stuck]
      exact .inl rfl
    · cases ending : first less state with
      | value result middle =>
        have found := same.trans ending
        rw [found]
        exact (rest result middle found (start.value result middle found).1).less less below
      | failure | unfinished =>
        rw [same.trans ending]
        exact .inr rfl
  · obtain ⟨result, middle, found, ended⟩ := Run.bind_eq_value ended
    obtain ⟨stays, known⟩ := start.value result middle found
    obtain ⟨stays', known'⟩ := (rest result middle found stays).value other last ended
    refine ⟨stays'.trans stays, ?_⟩
    rw [Run.bind_apply, known]
    exact known'
  · rcases Run.bind_eq_failure ended with failed | ⟨result, middle, found, ended⟩
    · rcases start.failure failure last failed with
        ⟨bare, stays, known⟩ | ⟨child, begin, last', asks, answer, here⟩
      · refine .inl ⟨bare, stays, ?_⟩
        rw [Run.bind_apply, known]
      · exact .inr ⟨child, begin, last', asks_first asks, answer, here⟩
    · obtain ⟨stays, known⟩ := start.value result middle found
      rcases (rest result middle found stays).failure failure last ended with
        ⟨bare, stays', known'⟩ | ⟨child, begin, last', asks, answer, here⟩
      · refine .inl ⟨bare, stays'.trans stays, ?_⟩
        rw [Run.bind_apply, known]
        exact known'
      · exact .inr ⟨child, begin, last', start.asks_next found asks, answer, here⟩

/-- What is done around a plan does not ask anything. -/
theorem wrapped {plan : Plan Result} {start : State → State} {finish : State → State → State}
    (traced : Traced evaluate place plan (start state))
    (stays : ∀ last, last.context.SameFrame (start state).context →
      (finish state last).context.SameFrame state.context) :
    Traced evaluate place
      (fun evaluate => Run.wrapped start (fun _ failure => failure) finish (plan evaluate))
      state := by
  refine ⟨fun less below => ?_, fun result after ended => ?_, fun failure after ended => ?_⟩
  · rw [Run.wrapped_apply, Run.wrapped_apply]
    rcases traced.less less below with stuck | same
    · rw [stuck]
      exact .inl rfl
    · rw [same]
      exact .inr rfl
  · obtain ⟨last, found, rfl⟩ := Run.wrapped_eq_value ended
    obtain ⟨same, known⟩ := traced.value result last found
    refine ⟨stays last same, ?_⟩
    rw [Run.wrapped_apply, known]
  · obtain ⟨_, last, found, rfl, rfl⟩ := Run.wrapped_eq_failure ended
    rcases traced.failure _ last found with
      ⟨bare, same, known⟩ | ⟨child, begin, last', asks, answer, here⟩
    · refine .inl ⟨bare, stays last same, ?_⟩
      rw [Run.wrapped_apply, known]
    · refine .inr ⟨child, begin, last', fun less below unknown => ?_, answer, here⟩
      show Run.wrapped start _ finish (plan less) state = .unfinished
      rw [Run.wrapped_apply, asks less below unknown]

/-- Only what a plan does from the one state matters. -/
theorem congr {plan plan' : Plan Result}
    (same : ∀ evaluate, plan evaluate state = plan' evaluate state)
    (traced : Traced evaluate place plan' state) : Traced evaluate place plan state where
  less less below := by
    rw [same, same]
    exact traced.less less below
  value result after ended := by
    rw [same] at ended ⊢
    exact traced.value result after ended
  failure failure after ended := by
    rw [same] at ended
    rcases traced.failure failure after ended with
      ⟨bare, stays, known⟩ | ⟨child, begin, last, asks, answer, here⟩
    · exact .inl ⟨bare, stays, (same _).trans known⟩
    · exact .inr ⟨child, begin, last,
        fun less below unknown => (same less).trans (asks less below unknown), answer, here⟩

end Plan.Traced

/-! ### Plans in one frame -/

/-- What is known of a plan from every state in a frame. -/
def Plan.TracedIn (frame : Context) (evaluate : Expr → Run Value) (place : Expr → State → Prop)
    (plan : Plan Result) : Prop :=
  ∀ state : State, state.context.SameFrame frame → plan.Traced evaluate place state

namespace Plan.TracedIn

variable {frame : Context} {evaluate : Expr → Run Value} {place : Expr → State → Prop}

theorem pure (result : Result) : TracedIn frame evaluate place fun _ => Pure.pure result :=
  fun _ _ => .ofClosed (.ofStill fun _ _ left => by cases left; rfl)
    fun _ _ failed => by cases failed

theorem raise (fault : Fault) :
    TracedIn frame evaluate place fun _ => (Run.raise fault : Run Result) :=
  fun _ _ => .ofClosed (.raise fault) fun _ _ failed => by cases failed; exact ⟨fault, rfl⟩

theorem unfinished : TracedIn frame evaluate place fun _ => (Run.unfinished : Run Result) :=
  fun _ _ => .ofClosed (fun _ _ left => by cases left) fun _ _ failed => by cases failed

theorem ofExcept (computed : Except Fault Result) :
    TracedIn frame evaluate place fun _ => Run.ofExcept computed := by
  cases computed with
  | ok result => exact pure result
  | error fault => exact raise fault

theorem record (event : Event) : TracedIn frame evaluate place fun _ => Run.record event :=
  fun _ _ => .ofClosed (.ofStill fun _ _ left => by cases left; rfl)
    fun _ _ failed => by cases failed

theorem lookup (name : String) : TracedIn frame evaluate place fun _ => Run.lookup name :=
  fun state _ => .ofClosed (.lookup name) fun failure after failed => by
    rw [Run.lookup_apply] at failed
    split at failed <;> cases failed
    exact ⟨_, rfl⟩

theorem assign (name : String) (value : Value) :
    TracedIn frame evaluate place fun _ => Run.assign name value :=
  fun _ _ => .ofClosed (.assign name value) fun _ _ failed => by cases failed

theorem checkpoint (interpreter : Interpreter) :
    TracedIn frame evaluate place fun _ => interpreter.checkpoint :=
  fun state _ => .ofClosed (.checkpoint interpreter) fun failure after failed => by
    rw [Interpreter.checkpoint_apply] at failed
    repeat' split at failed
    all_goals cases failed
    all_goals exact ⟨_, rfl⟩

theorem newObject : TracedIn frame evaluate place fun _ => Run.newObject :=
  fun _ _ => .ofClosed (.ofStill fun _ _ left => by cases left; rfl)
    fun _ _ failed => by cases failed

theorem bind {first : Plan Result} {next : Result → Plan Other}
    (start : TracedIn frame evaluate place first)
    (rest : ∀ result, TracedIn frame evaluate place (next result)) :
    TracedIn frame evaluate place fun evaluate =>
      first evaluate >>= fun result => next result evaluate :=
  fun state inside => .bind (start state inside) fun result middle _ same =>
    rest result middle (same.trans inside)

theorem branch (holds : Bool) {plan other : Plan Result}
    (yes : TracedIn frame evaluate place plan) (no : TracedIn frame evaluate place other) :
    TracedIn frame evaluate place fun evaluate =>
      if holds then plan evaluate else other evaluate := by
  cases holds with
  | true => exact yes
  | false => exact no

theorem newArray (items : List Value) :
    TracedIn frame evaluate place fun _ => Run.newArray items :=
  bind newObject fun _ => pure _

theorem iterate {turn : (Expr → Run Value) → Loop → Run (Turn Loop Result)}
    (turns : ∀ loop, TracedIn frame evaluate place fun evaluate => turn evaluate loop)
    (rounds : Nat) (loop : Loop) :
    TracedIn frame evaluate place fun evaluate => Run.iterate (turn evaluate) rounds loop := by
  induction rounds generalizing loop with
  | zero => exact unfinished
  | succ rounds inductionHypothesis =>
    simp only [Run.iterate_succ]
    refine bind (turns loop) fun turned => ?_
    cases turned with
    | again next => exact inductionHypothesis next
    | done result => exact pure result

/-! ### Nodes -/

variable (nodes : ∀ child, TracedIn frame evaluate place fun evaluate => evaluate child)

include nodes

theorem evaluateAll (items : List Expr) :
    TracedIn frame evaluate place fun evaluate => Expr.evaluateAll evaluate items := by
  induction items with
  | nil => exact pure []
  | cons item rest inductionHypothesis =>
    exact bind (nodes item) fun _ => bind inductionHypothesis fun _ => pure _

theorem evaluateOptional (node : Option Expr) :
    TracedIn frame evaluate place fun evaluate => Expr.evaluateOptional evaluate node := by
  cases node with
  | none => exact pure none
  | some node => exact bind (nodes node) fun _ => pure _

theorem evaluateCases (otherwise : Option Expr) (cases : List (Expr × Expr)) :
    TracedIn frame evaluate place fun evaluate =>
      Expr.evaluateCases evaluate otherwise cases := by
  induction cases with
  | nil =>
    cases otherwise with
    | none => exact pure Value.void
    | some node => exact nodes node
  | cons head rest inductionHypothesis =>
    exact bind (nodes head.1) fun value => branch value.isTruthy (nodes head.2) inductionHypothesis

theorem forTurn (interpreter : Interpreter) (name : String) (body : Expr)
    (loop : Range × List Value) :
    TracedIn frame evaluate place fun evaluate =>
      Expr.forTurn interpreter evaluate name body loop := by
  obtain ⟨range, values⟩ := loop
  dsimp only [Expr.forTurn]
  rcases range.next with ⟨_ | current, rest⟩
  · exact pure _
  · exact bind (checkpoint interpreter) fun _ => bind (assign name _) fun _ =>
      bind (nodes body) fun _ => pure _

theorem whileTurn (interpreter : Interpreter) (condition body : Expr) (values : List Value) :
    TracedIn frame evaluate place fun evaluate =>
      Expr.whileTurn interpreter evaluate condition body values := by
  exact bind (checkpoint interpreter) fun _ => bind (nodes condition) fun value =>
    branch value.isTruthy (bind (nodes body) fun _ => pure _) (pure _)

end Plan.TracedIn

/-! ### Calls -/

/-- Whether a node, evaluated from a state, is a call that enters a body. -/
inductive Expr.Enters (evaluate : Expr → Run Value) : Expr → State → Expr → State → Prop
  | call {span : Span} {callee : Expr} {nodes : List Expr} {function : Function} {args : List Value}
      {state middle last start : State}
      (called : evaluate callee state = .value (.function function) middle)
      (given : evaluateAll evaluate nodes middle = .value args last)
      (starts : start.StartsBody function args span last.context) :
      Enters evaluate (.call span callee nodes) state function.body start

namespace Plan.Traced

variable {evaluate : Expr → Run Value} {place : Expr → State → Prop}
  (stays : ∀ child, (evaluate child).StaysInFrame)

include stays

theorem enterBody (function : Function) (args : List Value) (span : Span) (state : State)
    (body : ∀ start : State, start.StartsBody function args span state.context →
      place function.body start) :
    Traced evaluate place (fun evaluate => Interpreter.enterBody evaluate function args span)
      state := by
  by_cases arity : args.length = function.arity
  · obtain ⟨start, starts, same⟩ := Interpreter.enterBody_start function args span arity state
    refine congr same (wrapped (ask (stays _) (body start starts)) fun last _ => ?_)
    exact .refl state.context
  · refine congr (fun evaluate => ?_) (TracedIn.raise
      (.arityMismatch function.displayName function.arity args.length) state (.refl _))
    unfold Interpreter.enterBody
    rw [if_pos arity]

theorem callFunction (interpreter : Interpreter) (function : Function) (args : List Value)
    (span : Span) (state : State)
    (body : ∀ start : State, start.StartsBody function args span state.context →
      place function.body start) :
    Traced evaluate place
      (fun evaluate => interpreter.callFunction evaluate function args span) state := by
  refine wrapped (bind (TracedIn.checkpoint interpreter _ (.refl _)) fun _ middle passed _ => ?_)
    fun last inside => inside
  have kept : middle.context = state.context := Interpreter.context_of_checkpoint passed
  by_cases deep : interpreter.limits.maxDepth ≤ middle.context.depth
  · refine congr (fun evaluate => ?_) (TracedIn.raise
      (.stackOverflow interpreter.limits.maxDepth) middle (.refl _))
    exact (interpreter.descend_apply _ middle).trans (if_pos deep)
  · refine congr (fun evaluate => ?_)
      (enterBody stays function args span middle fun start starts => body start (kept ▸ starts))
    exact (interpreter.descend_apply _ middle).trans (if_neg deep)

/-- A node asks for nodes in the frame that it is evaluated in, and for the body that it calls. -/
theorem evaluateNode (interpreter : Interpreter) (rounds : Nat) (node : Expr) (state : State) :
    Traced evaluate (fun child start => start.context.SameFrame state.context ∨
        Expr.Enters evaluate node state child start)
      (fun evaluate => Expr.evaluateNode interpreter rounds evaluate node) state := by
  have nodes (node child : Expr) : TracedIn state.context evaluate (fun child start =>
      start.context.SameFrame state.context ∨ Expr.Enters evaluate node state child start)
      fun evaluate => evaluate child := fun _ inside => ask (stays child) (.inl inside)
  have inside : state.context.SameFrame state.context := .refl _
  cases node with
  | number span value => exact TracedIn.pure _ state inside
  | string span value => exact TracedIn.pure _ state inside
  | array span items =>
    exact TracedIn.bind (.evaluateAll (nodes _) items) (fun _ => .newArray _) state inside
  | lookup span name => exact TracedIn.lookup name state inside
  | assign span name value =>
    exact TracedIn.bind (nodes _ value) (fun _ => .bind (.assign _ _) fun _ => .pure _) state inside
  | binary span op left right =>
    exact TracedIn.bind (nodes _ left) (fun _ => .bind (nodes _ right) fun _ =>
      .bind .newObject fun _ => .ofExcept _) state inside
  | unary span op operand =>
    exact TracedIn.bind (nodes _ operand) (fun _ => .ofExcept _) state inside
  | conditional span cases otherwise =>
    exact TracedIn.evaluateCases (nodes _) otherwise cases state inside
  | forLoop span name start stop step body =>
    exact TracedIn.bind (nodes _ start) (fun _ => .bind (nodes _ stop) fun _ =>
      .bind (.evaluateOptional (nodes _) step) fun _ => .bind (.ofExcept _) fun _ =>
      .bind (.iterate (.forTurn (nodes _) interpreter name body) rounds _) fun _ =>
      .bind (.record _) fun _ => .newArray _) state inside
  | whileLoop span condition body =>
    exact TracedIn.bind
      (.iterate (.whileTurn (nodes _) interpreter condition body) rounds _)
      (fun _ => .bind (.record _) fun _ => .newArray _) state inside
  | define span name params site body =>
    cases name with
    | none => exact TracedIn.pure _ state inside
    | some name => exact TracedIn.bind (.assign _ _) (fun _ => .pure _) state inside
  | call span callee args =>
    refine bind (nodes _ callee state inside) fun value middle called same => ?_
    refine bind (TracedIn.evaluateAll (nodes _) args middle same) fun given last argued _ => ?_
    cases value with
    | function function =>
      exact callFunction stays interpreter function given span last fun start starts =>
        .inr (.call called argued starts)
    | number | string | array | void => exact TracedIn.raise _ last (.refl _)

end Plan.Traced

end Treewalk

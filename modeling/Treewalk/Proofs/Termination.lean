/-
This file says what it is for a run to return, and how that is shown of runs that are put together.

A run that takes fuel returns when there is one end, a value or a failure, to which it comes on all
fuel from some amount on. `Returns` asks in addition that a returned value and the state that is
left behind meet a condition, so that the proof for one run can be used by the next one: the
condition of the first is what the second starts from. A loop returns when every round of it does
and leaves less to do than there was (`Returns.iterate`).

A node returns when its children do, apart from loops and calls: they are what makes an evaluation
long, and why they return is for each theorem about termination to say. What all of them have in
common is here (`Steady.settles`), for any property of values and any condition on states that an
evaluation keeps.
-/
import Treewalk.Proofs.Children
import Treewalk.Proofs.Parts

namespace Treewalk

variable {Result Other Loop : Type}

/-- Whether a run ended, and with a value only under a condition. -/
def Outcome.Meets (condition : Result → State → Prop) : Outcome Result → Prop
  | value result after => condition result after
  | failure _ _ => True
  | unfinished => False

theorem Outcome.Meets.weaken {condition condition' : Result → State → Prop}
    {ending : Outcome Result} (meets : ending.Meets condition)
    (weaker : ∀ result after, condition result after → condition' result after) :
    ending.Meets condition' := by
  cases ending with
  | value result after => exact weaker result after meets
  | failure failure after => trivial
  | unfinished => exact meets

/-- On all fuel from some amount on, a run comes to one end. -/
def ComesTo (run : Nat → Run Result) (state : State) (ending : Outcome Result) : Prop :=
  ∃ enough, ∀ fuel, enough ≤ fuel → run fuel state = ending

/-- A run that takes fuel comes to an end, and to a value only under a condition. -/
def Returns (condition : Result → State → Prop) (run : Nat → Run Result) (state : State) : Prop :=
  ∃ ending, ComesTo run state ending ∧ ending.Meets condition

namespace Returns

variable {condition : Result → State → Prop} {state : State}

theorem weaken {condition' : Result → State → Prop} {run : Nat → Run Result}
    (returns : Returns condition run state)
    (weaker : ∀ result after, condition result after → condition' result after) :
    Returns condition' run state := by
  obtain ⟨ending, comes, meets⟩ := returns
  exact ⟨ending, comes, meets.weaken weaker⟩

theorem ends {run : Nat → Run Result} (returns : Returns condition run state) :
    ∃ ending, ending ≠ .unfinished ∧ ∃ enough, ∀ fuel, enough ≤ fuel → run fuel state = ending := by
  obtain ⟨ending, comes, meets⟩ := returns
  refine ⟨ending, fun same => ?_, comes⟩
  rw [same] at meets
  exact meets

/-- A run that takes no fuel. -/
theorem ofMeets {run : Run Result} (meets : (run state).Meets condition) :
    Returns condition (fun _ => run) state :=
  ⟨run state, ⟨0, fun _ _ => rfl⟩, meets⟩

theorem raise (fault : Fault) : Returns condition (fun _ => Run.raise fault) state :=
  ofMeets trivial

/-- A run that passes on all but one unit of its fuel. -/
theorem succ {run : Nat → Run Result}
    (returns : Returns condition (fun fuel => run (fuel + 1)) state) :
    Returns condition run state := by
  obtain ⟨ending, ⟨enough, comes⟩, meets⟩ := returns
  refine ⟨ending, ⟨enough + 1, fun fuel more => ?_⟩, meets⟩
  obtain ⟨less, rfl⟩ : ∃ less, fuel = less + 1 := ⟨fuel - 1, by omega⟩
  exact comes less (by omega)

theorem bind {condition' : Other → State → Prop} {first : Nat → Run Result}
    {next : Result → Nat → Run Other} (returns : Returns condition first state)
    (continues : ∀ result after, condition result after → Returns condition' (next result) after) :
    Returns condition' (fun fuel => first fuel >>= fun result => next result fuel) state := by
  obtain ⟨ending, ⟨enough, comes⟩, meets⟩ := returns
  cases ending with
  | value result after =>
    obtain ⟨ending', ⟨enough', comes'⟩, meets'⟩ := continues result after meets
    refine ⟨ending', ⟨max enough enough', fun fuel more => ?_⟩, meets'⟩
    show (first fuel >>= fun result => next result fuel) state = ending'
    rw [Run.bind_apply, comes fuel (by omega)]
    exact comes' fuel (by omega)
  | failure failure after =>
    refine ⟨.failure failure after, ⟨enough, fun fuel more => ?_⟩, trivial⟩
    show (first fuel >>= fun result => next result fuel) state = _
    rw [Run.bind_apply, comes fuel more]
  | unfinished => exact meets.elim

theorem ofExcept (result : Except Fault Result)
    (meets : ∀ value, result = .ok value → condition value state) :
    Returns condition (fun _ => Run.ofExcept result) state := by
  cases result with
  | ok value => exact ofMeets (meets value rfl)
  | error fault => exact raise fault

theorem wrapped {run : Nat → Run Result} (start : State → State)
    (mark : State → Failure → Failure) (finish : State → State → State)
    (returns : Returns (fun result last => condition result (finish state last)) run
      (start state)) :
    Returns condition (fun fuel => Run.wrapped start mark finish (run fuel)) state := by
  obtain ⟨ending, ⟨enough, comes⟩, meets⟩ := returns
  cases ending with
  | value result last =>
    refine ⟨.value result (finish state last), ⟨enough, fun fuel more => ?_⟩, meets⟩
    show Run.wrapped start mark finish (run fuel) state = _
    rw [Run.wrapped_apply, comes fuel more]
  | failure failure last =>
    refine ⟨.failure (mark last failure) (finish state last), ⟨enough, fun fuel more => ?_⟩,
      trivial⟩
    show Run.wrapped start mark finish (run fuel) state = _
    rw [Run.wrapped_apply, comes fuel more]
  | unfinished => exact meets.elim

theorem descend {run : Nat → Run Result} (interpreter : Interpreter)
    (returns : state.context.depth < interpreter.limits.maxDepth → Returns condition run state) :
    Returns condition (fun fuel => interpreter.descend (run fuel)) state := by
  by_cases deep : interpreter.limits.maxDepth ≤ state.context.depth
  · refine ⟨Run.raise (.stackOverflow interpreter.limits.maxDepth) state,
      ⟨0, fun fuel _ => ?_⟩, trivial⟩
    show interpreter.descend (run fuel) state = _
    rw [Interpreter.descend_apply, if_pos deep]
  · obtain ⟨ending, ⟨enough, comes⟩, meets⟩ := returns (Nat.not_le.mp deep)
    refine ⟨ending, ⟨enough, fun fuel more => ?_⟩, meets⟩
    show interpreter.descend (run fuel) state = _
    rw [Interpreter.descend_apply, if_neg deep]
    exact comes fuel more

/-- A call returns when its body does from what the checkpoint leaves. -/
theorem callFunction {condition : Value → State → Prop} {passes : State → Prop}
    (interpreter : Interpreter) (function : Function) (args : List Value) (span : Span)
    (checkpoint : Returns (fun _ passed => passes passed) (fun _ => interpreter.checkpoint)
      (state.record (.callEntered function.displayName args.length)))
    (body : ∀ passed, passes passed → passed.context.depth < interpreter.limits.maxDepth →
      Returns (fun value last => condition value
          (State.record { last with context := passed.context }
            (.callLeft function.displayName args.length)))
        (fun fuel => Run.assignAll function.params args >>= fun _ =>
          function.body.eval interpreter fuel)
        { passed with context := passed.context.child function.displayName span }) :
    Returns condition
      (fun fuel => interpreter.callFunction (Expr.eval interpreter fuel) function args span)
      state := by
  simp only [Interpreter.callFunction_eq, Run.between_eq]
  refine wrapped _ _ _ (bind checkpoint fun _ passed passes =>
    descend interpreter fun shallow => ?_)
  unfold Interpreter.enterBody
  split
  · exact raise _
  · exact wrapped _ _ _ (body passed passes shallow)

/-! ### Loops -/

/-- What a round has to leave behind: less to do if the loop goes on, and else what is asked of the
loop. -/
def RoundMeets (ready : Nat → Loop → State → Prop) (condition : Result → State → Prop)
    (level : Nat) : Turn Loop Result → State → Prop
  | .again next, after => ∃ lower, lower < level ∧ ready lower next after
  | .done result, after => condition result after

/-- A loop returns when every round returns and leaves less to do. The fuel for a round and the
number of rounds grow together, but the rest of a loop has one round less on the same fuel, so that
the two have to be told apart in the induction. -/
theorem iterate {turn : Nat → Loop → Run (Turn Loop Result)} (ready : Nat → Loop → State → Prop)
    (round : ∀ level loop state, ready level loop state →
      Returns (RoundMeets ready condition level) (fun fuel => turn fuel loop) state)
    {level : Nat} {loop : Loop} (start : ready level loop state) :
    Returns condition (fun fuel => Run.iterate (turn fuel) fuel loop) state := by
  have apart : ∃ ending, (∃ enough, ∀ fuel rounds, enough ≤ fuel → enough ≤ rounds →
      Run.iterate (turn fuel) rounds loop state = ending) ∧ ending.Meets condition := by
    induction level using Nat.strongRecOn generalizing loop state with
    | _ level inductionHypothesis =>
      obtain ⟨ending, ⟨enough, comes⟩, meets⟩ := round level loop state start
      have same : ∀ fuel, enough ≤ fuel → turn fuel loop state = ending := comes
      cases ending with
      | value result after =>
        cases result with
        | again next =>
          obtain ⟨lower, fewer, ready'⟩ := meets
          obtain ⟨ending, ⟨enough', comes'⟩, meets'⟩ := inductionHypothesis lower fewer ready'
          refine ⟨ending, ⟨max enough enough' + 1, fun fuel rounds more moreRounds => ?_⟩, meets'⟩
          obtain ⟨rest, rfl⟩ : ∃ rest, rounds = rest + 1 := ⟨rounds - 1, by omega⟩
          rw [Run.iterate_apply, same fuel (by omega)]
          exact comes' fuel rest (by omega) (by omega)
        | done result =>
          refine ⟨.value result after, ⟨enough + 1, fun fuel rounds more moreRounds => ?_⟩, meets⟩
          obtain ⟨rest, rfl⟩ : ∃ rest, rounds = rest + 1 := ⟨rounds - 1, by omega⟩
          rw [Run.iterate_apply, same fuel (by omega)]
      | failure failure after =>
        refine ⟨.failure failure after, ⟨enough + 1, fun fuel rounds more moreRounds => ?_⟩,
          trivial⟩
        obtain ⟨rest, rfl⟩ : ∃ rest, rounds = rest + 1 := ⟨rounds - 1, by omega⟩
        rw [Run.iterate_apply, same fuel (by omega)]
      | unfinished => exact meets.elim
  obtain ⟨ending, ⟨enough, comes⟩, meets⟩ := apart
  exact ⟨ending, ⟨enough, fun fuel more => comes fuel fuel more more⟩, meets⟩

end Returns

/-! ### Nodes -/

/-- Whether a node returns from every state that meets a condition, with a value that has a property
and in a state that meets the condition again. -/
def Expr.Settles (interpreter : Interpreter) (good : Value → Prop) (ready : State → Prop)
    (node : Expr) : Prop :=
  ∀ state, ready state → Returns (fun value after => good value ∧ ready after)
    (fun fuel => node.eval interpreter fuel) state

/-- Whether a node is a loop. -/
def Expr.isLoop : Expr → Bool
  | forLoop .. | whileLoop .. => true
  | _ => false

/-- Whether a property of values and a condition on states are kept by whatever an evaluation does
besides defining functions, counting steps and opening frames. -/
structure Steady (good : Value → Prop) (ready : State → Prop) : Prop where
  number : ∀ value, good (.number value)
  string : ∀ value, good (.string value)
  void : good .void
  array : ∀ object latest, good (.array object latest) ↔ ∀ item ∈ latest, good item
  record : ∀ {state : State} (event : Event), ready state → ready (state.record event)
  newObject : ∀ {state : State}, ready state →
    ready { state with nextObject := state.nextObject + 1 }
  set : ∀ {state : State} (name : String) {value : Value}, good value → ready state →
    ready { state with context := state.context.set name value }
  get : ∀ {state : State} {name : String} {value : Value}, ready state →
    state.context.get? name = some value → good value

namespace Steady

variable {good : Value → Prop} {ready : State → Prop} (steady : Steady good ready)

include steady

/-! ### Values -/

theorem ofItems (object : Nat) {items : List Value} (all : ∀ item ∈ items, good item) :
    good (.ofItems object items) :=
  (steady.array object items.reverse).mpr fun item member => all item (List.mem_reverse.mp member)

theorem strings {op : BinaryOperator} {left right : String} {value : Value}
    (applied : applyStrings op left right = .ok value) : good value := by
  unfold applyStrings at applied
  split at applied <;> cases applied
  · exact steady.string _
  · exact steady.number _
  · exact steady.number _

theorem ofMap {computed : Except Fault Number} {value : Value}
    (mapped : computed.map Value.number = .ok value) : good value := by
  cases computed with
  | error fault => cases mapped
  | ok number =>
    cases mapped
    exact steady.number number

theorem binary {op : BinaryOperator} {object : Nat} {left right value : Value}
    (goodLeft : good left) (goodRight : good right)
    (applied : op.apply object left right = .ok value) : good value := by
  unfold BinaryOperator.apply at applied
  split at applied
  · split at applied
    · cases applied
      refine (steady.array _ _).mpr fun item member => ?_
      rcases List.mem_cons.mp member with rfl | before
      · exact goodRight
      · exact (steady.array _ _).mp goodLeft item before
    · cases applied
  · exact steady.ofMap applied
  · exact steady.strings applied
  · cases applied

theorem unary {op : UnaryOperator} {operand value : Value}
    (applied : op.apply operand = .ok value) : good value := by
  unfold UnaryOperator.apply at applied
  split at applied
  · exact steady.ofMap applied
  · cases applied
    exact steady.number _
  · cases applied

/-! ### Parts of nodes -/

variable {interpreter : Interpreter}

theorem newArray {items : List Value} (all : ∀ item ∈ items, good item) {state : State}
    (started : ready state) :
    Returns (fun value after => good value ∧ ready after) (fun _ => Run.newArray items) state :=
  .ofMeets ⟨steady.ofItems _ all, steady.newObject started⟩

theorem assign (name : String) {value : Value} (fits : good value) {state : State}
    (started : ready state) :
    Returns (fun _ after => ready after) (fun _ => Run.assign name value) state :=
  .ofMeets (steady.record _ (steady.set name fits started))

theorem assignAll (names : List String) {values : List Value} (all : ∀ value ∈ values, good value)
    {state : State} (started : ready state) :
    Returns (fun _ after => ready after) (fun _ => Run.assignAll names values) state := by
  induction names generalizing values state with
  | nil => exact .ofMeets started
  | cons name names inductionHypothesis =>
    cases values with
    | nil => exact .ofMeets started
    | cons value values =>
      exact (steady.assign name (all value List.mem_cons_self) started).bind fun _ _ assigned =>
        inductionHypothesis (fun other member => all other (List.mem_cons_of_mem value member))
          assigned

omit steady in
theorem evaluateAll {items : List Expr}
    (nodes : ∀ item ∈ items, item.Settles interpreter good ready) {state : State}
    (started : ready state) :
    Returns (fun values after => (∀ value ∈ values, good value) ∧ ready after)
      (fun fuel => Expr.evaluateAll (Expr.eval interpreter fuel) items) state := by
  induction items generalizing state with
  | nil => exact .ofMeets ⟨fun _ member => absurd member List.not_mem_nil, started⟩
  | cons item rest inductionHypothesis =>
    refine .bind (nodes item List.mem_cons_self state started) fun value after given => ?_
    refine .bind (inductionHypothesis
      (fun other member => nodes other (List.mem_cons_of_mem item member)) given.2)
      fun values last others => ?_
    refine .ofMeets ⟨fun other member => ?_, others.2⟩
    rcases List.mem_cons.mp member with rfl | behind
    · exact given.1
    · exact others.1 other behind

omit steady in
theorem evaluateOptional {fits : Option Value → Prop} {node : Option Expr}
    (absent : node = none → fits none)
    (present : ∀ child, node = some child →
      child.Settles interpreter (fun value => fits (some value)) ready)
    {state : State} (started : ready state) :
    Returns (fun value after => fits value ∧ ready after)
      (fun fuel => Expr.evaluateOptional (Expr.eval interpreter fuel) node) state := by
  cases node with
  | none => exact .ofMeets ⟨absent rfl, started⟩
  | some child => exact .bind (present child rfl state started) fun _ _ given => .ofMeets given

theorem evaluateCases {cases : List (Expr × Expr)} {otherwise : Option Expr}
    (nodes : ∀ child ∈ cases.flatMap (fun case => [case.1, case.2]) ++ otherwise.toList,
      child.Settles interpreter good ready) {state : State} (started : ready state) :
    Returns (fun value after => good value ∧ ready after)
      (fun fuel => Expr.evaluateCases (Expr.eval interpreter fuel) otherwise cases) state := by
  induction cases generalizing state with
  | nil =>
    cases otherwise with
    | none => exact .ofMeets ⟨steady.void, started⟩
    | some node => exact nodes node (List.mem_singleton_self node) state started
  | cons head rest inductionHypothesis =>
    refine .bind (nodes head.1 (by simp) state started) fun value after given => ?_
    split
    · exact nodes head.2 (by simp) after given.2
    · exact inductionHypothesis (fun child member => nodes child (by simp_all)) given.2

/-- What a loop does when its rounds are over. -/
theorem finish {rounds : Nat → Run (List Value)} (event : List Value → Event) {state : State}
    (returns : Returns (fun values after => (∀ value ∈ values, good value) ∧ ready after) rounds
      state) :
    Returns (fun value after => good value ∧ ready after)
      (fun fuel => rounds fuel >>= fun values => Run.record (event values) >>= fun _ =>
        Run.newArray values) state := by
  refine returns.bind fun values after given => ?_
  have recorded : Returns (fun _ last => ready last) (fun _ => Run.record (event values)) after :=
    .ofMeets (steady.record _ given.2)
  exact recorded.bind fun _ last started => steady.newArray given.1 started

/-- A counting loop returns when its rounds do, whatever range its bounds may have. -/
theorem forLoop {span : Span} {name : String} {start stop : Expr} {step : Option Expr}
    {body : Expr} {fitsStart fitsStop : Value → Prop} (fitsStep : Option Value → Prop)
    (starts : start.Settles interpreter fitsStart ready)
    (stops : stop.Settles interpreter fitsStop ready) (absent : step = none → fitsStep none)
    (present : ∀ child, step = some child →
      child.Settles interpreter (fun value => fitsStep (some value)) ready)
    (rounds : ∀ start stop step range, fitsStart start → fitsStop stop → fitsStep step →
      Range.ofBounds start stop step = .ok range → ∀ state, ready state →
        Returns (fun values after => (∀ value ∈ values, good value) ∧ ready after)
          (fun fuel => Run.iterate (Expr.forTurn interpreter (Expr.eval interpreter fuel) name body)
            fuel (range, [])) state)
    {state : State} (started : ready state) :
    Returns (fun value after => good value ∧ ready after)
      (fun fuel => Expr.evaluateNode interpreter fuel (Expr.eval interpreter fuel)
        (.forLoop span name start stop step body)) state := by
  refine .bind (starts state started) fun start after first => ?_
  refine .bind (stops after first.2) fun stop after second => ?_
  refine .bind (evaluateOptional absent present second.2) fun step after third => ?_
  have ranged : Returns
      (fun range last => Range.ofBounds start stop step = .ok range ∧ ready last)
      (fun _ => Run.ofExcept (Range.ofBounds start stop step)) after :=
    .ofExcept _ fun range same => ⟨same, third.2⟩
  exact ranged.bind fun range after fourth =>
    steady.finish (fun values => .forFinished name values.length)
      (rounds start stop step range first.1 second.1 third.1 fourth.1 after fourth.2)

/-- A node returns when its children do and it does as a loop or as a call. -/
theorem evaluateNode {node : Expr}
    (nodes : ∀ child ∈ node.children, child.Settles interpreter good ready)
    (loop : node.isLoop → ∀ state, ready state →
      Returns (fun value after => good value ∧ ready after)
        (fun fuel => Expr.evaluateNode interpreter fuel (Expr.eval interpreter fuel) node) state)
    (define : ∀ span name params site body, node = .define span name params site body →
      good (.function ⟨name, params, site, body⟩))
    (call : ∀ function args span state, good (.function function) → (∀ arg ∈ args, good arg) →
      ready state → Returns (fun value after => good value ∧ ready after)
        (fun fuel => interpreter.callFunction (Expr.eval interpreter fuel) function args span)
        state)
    {state : State} (started : ready state) :
    Returns (fun value after => good value ∧ ready after)
      (fun fuel => Expr.evaluateNode interpreter fuel (Expr.eval interpreter fuel) node) state := by
  cases node with
  | number span value => exact .ofMeets ⟨steady.number value, started⟩
  | string span value => exact .ofMeets ⟨steady.string value, started⟩
  | array span items =>
    exact (evaluateAll nodes started).bind fun values last given =>
      steady.newArray given.1 given.2
  | lookup span name =>
    refine .ofMeets ?_
    show (Run.lookup name state).Meets _
    rw [Run.lookup_apply]
    cases bound : state.context.get? name with
    | none => trivial
    | some value => exact ⟨steady.get started bound, started⟩
  | assign span name value =>
    refine .bind (nodes value (by simp [Expr.children]) state started) fun value after given => ?_
    exact (steady.assign name given.1 given.2).bind fun _ last assigned =>
      .ofMeets ⟨given.1, assigned⟩
  | binary span op left right =>
    refine .bind (nodes left (by simp [Expr.children]) state started) fun left after first => ?_
    refine .bind (nodes right (by simp [Expr.children]) after first.2) fun right last second => ?_
    have numbered : Returns (fun _ last => ready last) (fun _ => Run.newObject) last :=
      .ofMeets (steady.newObject second.2)
    exact numbered.bind fun object last started =>
      .ofExcept _ fun value applied => ⟨steady.binary first.1 second.1 applied, started⟩
  | unary span op operand =>
    refine .bind (nodes operand (by simp [Expr.children]) state started)
      fun operand last given => ?_
    exact .ofExcept _ fun value applied => ⟨steady.unary applied, given.2⟩
  | conditional span cases otherwise => exact steady.evaluateCases nodes started
  | forLoop span name start stop step body => exact loop rfl state started
  | whileLoop span condition body => exact loop rfl state started
  | define span name params site body =>
    have fits := define span name params site body rfl
    cases name with
    | none => exact .ofMeets ⟨fits, started⟩
    | some name =>
      exact (steady.assign name fits started).bind fun _ last assigned =>
        .ofMeets ⟨fits, assigned⟩
  | call span callee args =>
    refine .bind (nodes callee (by simp [Expr.children]) state started)
      fun callee after called => ?_
    refine .bind (evaluateAll
      (fun item member => nodes item (List.mem_cons_of_mem _ member)) called.2)
      fun args last given => ?_
    cases callee with
    | function function => exact call function args span last called.1 given.1 given.2
    | number | string | array | void => exact .raise _

/-- What is true of the evaluation of a node is true of its visit. -/
theorem settles {fits : Value → Prop} {node : Expr}
    (returns : ∀ state, ready state → Returns (fun value after => fits value ∧ ready after)
      (fun fuel => Expr.evaluateNode interpreter fuel (Expr.eval interpreter fuel) node) state) :
    node.Settles interpreter fits ready := by
  intro state started
  refine Returns.succ (Returns.wrapped _ _ _ ?_)
  have entered : Returns (fun _ after => ready after) (fun _ => Run.enter node) state :=
    .ofMeets (steady.record _ started)
  exact entered.bind fun _ after started => returns after started

end Steady

end Treewalk

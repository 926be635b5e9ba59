/-
This file proves that every end of an evaluation is one that the rules of the language derive.

Evaluations are taken to be without a budget and without an interrupt, of which the rules say
nothing, and they are those of the reference evaluator, which computes with trees as the rules do.
What the rules derive from some bindings is a condition on how a computation may end
(`Plain.Leaves`), and there is one lemma for each way of putting computations together: it asks for
the conditions on the parts, and for the rules that make of them the condition on the whole. The
frames of the callers never matter, and only their number is kept.

The rules count in the integers, the evaluator in words of the machine. A word that does not hold
the next number ends the loop, and rightly so, since the end of the loop is a word
(`Progression.endsOutside_advanced`).
-/
import Treewalk.Proofs.Reading
import Treewalk.Proofs.Rules

namespace Treewalk

variable {Result Other : Type}

/-- An interpreter that bounds the depth of calls and nothing else. -/
def Interpreter.ofDepth (most : Nat) : Interpreter := .ofLimits ⟨most, none⟩

/-! ### Counting -/

namespace Progression

/-- The range that is where the progression is. -/
def range : Progression → Range
  | int current stop step => .int (narrow? current) stop step
  | float current stop step => .float current stop step

/-- Whether the progression has ended if its current number is none of the language. -/
def EndsOutside (numbers : Progression) : Prop := numbers.number? = none → ¬ numbers.Before

theorem fst_next_range {numbers : Progression} (ended : ¬ numbers.Before) :
    numbers.range.next.1 = none := by
  cases numbers with
  | int exact stop step =>
    show (Range.next (.int (narrow? exact) stop step)).1 = none
    cases fits : narrow? exact with
    | none => rfl
    | some word =>
      have same : word.toInt = exact := narrow?_eq_some_iff.mp fits
      have behind : Range.intBefore word stop step = false := by
        simp only [Before, Range.intBefore, same] at ended ⊢
        split <;> simp_all
      simp [Range.next, behind]
  | float real stop step =>
    have behind : Range.floatBefore real stop step = false := by
      simp only [Before, Range.floatBefore] at ended ⊢
      split <;> simp_all
    simp [range, Range.next, behind]

theorem next_range {numbers : Progression} {current : Number} (before : numbers.Before)
    (stands : numbers.number? = some current) :
    numbers.range.next = (some current, numbers.advanced.range) := by
  cases numbers with
  | int exact stop step =>
    obtain ⟨word, fits, rfl⟩ := Option.map_eq_some_iff.mp stands
    have same : word.toInt = exact := narrow?_eq_some_iff.mp fits
    have ahead : Range.intBefore word stop step = true := by
      simp only [Before, Range.intBefore, same] at before ⊢
      split <;> simp_all
    simp [range, fits, Range.next, ahead, same, advanced]
  | float real stop step =>
    cases stands
    have ahead : Range.floatBefore real stop step = true := by
      simp only [Before, Range.floatBefore] at before ⊢
      split <;> simp_all
    simp [range, Range.next, ahead, advanced]

theorem endsOutside_ofNumbers (start stop step : Number) :
    (ofNumbers start stop step).EndsOutside := by
  intro outside
  cases start <;> cases stop <;> cases step <;>
    simp [ofNumbers, number?, narrow?_toInt] at outside

theorem endsOutside_ofBounds {start stop step : Tree} {numbers : Progression}
    (bounds : ofBounds start stop step = .ok numbers) : numbers.EndsOutside := by
  cases start <;> cases stop <;> cases step <;> cases bounds
  exact endsOutside_ofNumbers _ _ _

/-- A count that leaves the integers of the language in the direction of its step has passed its
end, which is one of them. -/
theorem endsOutside_advanced {numbers : Progression} {current : Number} (before : numbers.Before)
    (stands : numbers.number? = some current) : numbers.advanced.EndsOutside := by
  intro outside ahead
  cases numbers with
  | int exact stop step =>
    obtain ⟨word, fits, rfl⟩ := Option.map_eq_some_iff.mp stands
    have same : word.toInt = exact := narrow?_eq_some_iff.mp fits
    have beyond : exact + step.toInt < Int64.minValue.toInt ∨
        Int64.maxValue.toInt < exact + step.toInt :=
      narrow?_eq_none_iff.mp (Option.map_eq_none_iff.mp outside)
    have least := word.minValue_le_toInt
    have greatest := word.toInt_le
    have stopLeast := stop.minValue_le_toInt
    have stopGreatest := stop.toInt_le
    simp only [Before, advanced] at ahead
    split at ahead <;> omega
  | float real stop step => cases outside

/-- The reference starts to count where the rules do. -/
theorem ofTrees_eq (start stop : Tree) (step : Option Tree) :
    Range.ofTrees start stop step =
      (ofBounds start stop (step.getD (.number (.int 1)))).map range := by
  unfold Range.ofTrees
  generalize step.getD (.number (.int 1)) = step
  rcases start with ⟨_ | _⟩ | _ | _ | _ | _ <;> rcases stop with ⟨_ | _⟩ | _ | _ | _ | _ <;>
    rcases step with ⟨_ | _⟩ | _ | _ | _ | _ <;>
    simp [ofBounds, bound, ofNumbers, range, Range.realBoundOfTree, Tree.toFloat?, narrow?_toInt,
      Except.map, Bind.bind, Except.bind, Pure.pure, Except.pure, Number.toFloat]

end Progression

/-! ### One round of a loop -/

namespace Plain

variable (interpreter : Interpreter) (evaluate : Expr → Plain Tree) (body : Expr) (rounds : Nat)

theorem forRounds_before {numbers : Progression} {current : Number} (before : numbers.Before)
    (stands : numbers.number? = some current) (name : String) :
    forRounds interpreter evaluate name body (rounds + 1) numbers.range = (do
      checkpoint interpreter
      assign name (.number current)
      let tree ← evaluate body
      let trees ← forRounds interpreter evaluate name body rounds numbers.advanced.range
      pure (tree :: trees)) := by
  rw [forRounds, Progression.next_range before stands]

theorem forRounds_ended {numbers : Progression} (ended : ¬ numbers.Before) (name : String) :
    forRounds interpreter evaluate name body (rounds + 1) numbers.range = pure [] := by
  have last := Progression.fst_next_range ended
  rw [forRounds]
  generalize numbers.range.next = next at last
  obtain ⟨_, rest⟩ := next
  cases last
  rfl

end Plain

/-! ### The bindings of a call -/

/-- Binding parameters in order is binding each of them to the last argument beside it. -/
theorem Bindings.setAll_apply (bindings : Bindings) (names : List String) (trees : List Tree)
    (name : String) :
    bindings.setAll names trees name =
      ((names.zip trees).reverse.lookup name).or (bindings name) := by
  induction names generalizing bindings trees with
  | nil => rfl
  | cons first names inductionHypothesis =>
    cases trees with
    | nil => rfl
    | cons tree trees =>
      rw [setAll, inductionHypothesis, List.zip_cons_cons, List.reverse_cons, List.lookup_append,
        Option.or_assoc]
      congr 1
      unfold set
      by_cases same : name = first
      · simp [same]
      · have other : (name == first) = false := beq_false_of_ne same
        simp [same, List.lookup_cons, other]

theorem Bindings.parameters_eq (params : List String) (args : List Tree) :
    (fun name => (params.zip args).reverse.lookup name) = empty.setAll params args := by
  funext name
  rw [setAll_apply]
  exact Option.or_none.symm

/-! ### What is derived of a computation -/

theorem Failure.fault_placed (failure : Failure) (span : Span) :
    (failure.placed span).fault = failure.fault := by
  obtain ⟨fault, message, place, backtrace⟩ := failure
  cases backtrace <;> rfl

namespace Plain

/-- Whether every end that a computation has at some depth of calls, from some bindings, is one of
these. The frames of the callers are left as they were. -/
def Leaves (depth : Nat) (plain : Plain Result) (bindings : Bindings)
    (ends : Except Fault Result → Bindings → Prop) : Prop :=
  ∀ callers steps ending last, callers.length = depth →
    plain ⟨bindings, callers, steps⟩ = some (ending, last) →
      last.callers = callers ∧ ends (ending.mapError Failure.fault) last.bindings

namespace Leaves

variable {depth most : Nat} {bindings : Bindings} {ends : Except Fault Result → Bindings → Prop}

theorem weaken {plain : Plain Result} {more : Except Fault Result → Bindings → Prop}
    (leaves : Leaves depth plain bindings ends)
    (all : ∀ result after, ends result after → more result after) :
    Leaves depth plain bindings more := fun callers steps ending last length ended =>
  (leaves callers steps ending last length ended).imp_right (all _ _)

theorem pure {result : Result} (here : ends (.ok result) bindings) :
    Leaves depth (Pure.pure result) bindings ends := by
  intro callers steps ending last _ ended
  cases ended
  exact ⟨rfl, here⟩

theorem raise {fault : Fault} (here : ends (.error fault) bindings) :
    Leaves depth (Plain.raise fault) bindings ends := by
  intro callers steps ending last _ ended
  cases ended
  exact ⟨rfl, here⟩

theorem unfinished : Leaves depth (Plain.unfinished : Plain Result) bindings ends :=
  fun _ _ _ _ _ ended => by cases ended

theorem ofExcept {computed : Except Fault Result} (here : ends computed bindings) :
    Leaves depth (Plain.ofExcept computed) bindings ends := by
  cases computed with
  | ok result => exact pure here
  | error fault => exact raise here

theorem bind {first : Plain Other} {next : Other → Plain Result}
    {middle : Except Fault Other → Bindings → Prop} (start : Leaves depth first bindings middle)
    (rest : ∀ result after, middle (.ok result) after → Leaves depth (next result) after ends)
    (fails : ∀ fault after, middle (.error fault) after → ends (.error fault) after) :
    Leaves depth (first >>= next) bindings ends := by
  intro callers steps ending last length ended
  rw [bind_apply] at ended
  cases known : first ⟨bindings, callers, steps⟩ with
  | none =>
    rw [known] at ended
    cases ended
  | some pair =>
    obtain ⟨result | result, after⟩ := pair
    all_goals
      rw [known] at ended
      obtain ⟨rfl, here⟩ := start callers steps _ after length known
    · cases ended
      exact ⟨rfl, fails _ _ here⟩
    · exact rest result after.bindings here after.callers after.steps ending last length ended

/-- A computation whose result is only wrapped up afterwards. -/
theorem map {first : Plain Other} {wrap : Other → Result}
    (start : Leaves depth first bindings fun result after => ends (result.map wrap) after) :
    Leaves depth (first >>= fun result => Pure.pure (wrap result)) bindings ends :=
  bind start (fun _ _ here => pure here) fun _ _ here => here

theorem stamped (span : Span) {inner : Plain Result} (leaves : Leaves depth inner bindings ends) :
    Leaves depth (Plain.stamped span inner) bindings ends := by
  intro callers steps ending last length ended
  rw [stamped_apply] at ended
  cases known : inner ⟨bindings, callers, steps⟩ with
  | none =>
    rw [known] at ended
    cases ended
  | some pair =>
    obtain ⟨result | result, after⟩ := pair
    all_goals
      rw [known] at ended
      have here := leaves callers steps _ after length known
      cases ended
    · refine ⟨here.1, ?_⟩
      show ends (.error (result.placed span).fault) last.bindings
      rw [Failure.fault_placed]
      exact here.2
    · exact here

theorem afterAssign {name : String} {tree : Tree} {next : Unit → Plain Result}
    (rest : Leaves depth (next ()) (bindings.set name tree) ends) :
    Leaves depth (Plain.assign name tree >>= next) bindings ends :=
  fun callers steps ending last length ended => rest callers steps ending last length ended

theorem lookup {name : String} {ends : Except Fault Tree → Bindings → Prop}
    (known : ∀ tree, bindings name = some tree → ends (.ok tree) bindings)
    (unknown : bindings name = none → ends (.error (.undefinedVariable name)) bindings) :
    Leaves depth (Plain.lookup name) bindings ends := by
  intro callers steps ending last _ ended
  rw [lookup_apply] at ended
  dsimp only at ended
  cases found : bindings name with
  | none =>
    rw [found] at ended
    cases ended
    exact ⟨rfl, unknown found⟩
  | some tree =>
    rw [found] at ended
    cases ended
    exact ⟨rfl, known tree found⟩

/-- Without a budget a checkpoint does nothing that anyone can tell from the bindings. -/
theorem afterCheckpoint {next : Unit → Plain Result} (rest : Leaves depth (next ()) bindings ends) :
    Leaves depth (Plain.checkpoint (.ofDepth most) >>= next) bindings ends := by
  intro callers steps ending last length ended
  rw [bind_apply, checkpoint_apply] at ended
  exact rest callers _ ending last length ended

/-- What is bound in a frame of its own is forgotten. -/
theorem inFrame {own : Bindings} {inner : Plain Result}
    (leaves : Leaves (depth + 1) inner own fun result _ => ends result bindings) :
    Leaves depth (Plain.inFrame own inner) bindings ends := by
  intro callers steps ending last length ended
  obtain ⟨⟨result, after⟩, known, same⟩ := Option.map_eq_some_iff.mp ended
  obtain ⟨_, here⟩ := leaves (bindings :: callers) steps result after
    (congrArg (· + 1) length) known
  cases same
  exact ⟨rfl, here⟩

end Leaves

/-- A call without a budget: what is left of it after the checkpoint. -/
theorem callFunction_apply (most : Nat) (evaluate : Expr → Plain Tree) (function : Function)
    (args : List Tree) (bindings : Bindings) (callers : List (String → Option Tree))
    (steps : Nat) :
    callFunction (.ofDepth most) evaluate function args ⟨bindings, callers, steps⟩ =
      (if most ≤ callers.length then raise (.stackOverflow most)
        else if args.length ≠ function.arity then
          raise (.arityMismatch function.displayName function.arity args.length)
        else inFrame (Bindings.empty.setAll function.params args) (evaluate function.body))
        ⟨bindings, callers, min (steps + 1) State.maxSteps⟩ := by
  rw [← Bindings.parameters_eq, callFunction, bind_apply, checkpoint_apply]
  show (if most ≤ callers.length then _ else _ : Plain Tree) _ = _
  rfl

namespace Leaves

variable {depth most : Nat} {evaluate : Expr → Plain Tree}
  (nodes : ∀ depth node bindings,
    Leaves depth (evaluate node) bindings (Derives most depth (.node node) bindings))

include nodes

theorem callFunction (function : Function) (args : List Tree) (bindings : Bindings) :
    Leaves depth (Plain.callFunction (.ofDepth most) evaluate function args) bindings
      (Derives most depth (.call function args) bindings) := by
  intro callers steps ending last length ended
  rw [callFunction_apply, length] at ended
  by_cases deep : most ≤ depth
  · rw [if_pos deep] at ended
    exact raise (.tooDeep deep) callers _ ending last length ended
  have shallow : depth < most := Nat.lt_of_not_le deep
  by_cases counts : args.length = function.arity
  · rw [if_neg deep, if_neg (not_not_intro counts)] at ended
    refine inFrame ?_ callers _ ending last length ended
    exact (nodes _ _ _).weaken fun _ _ value => .body shallow counts value
  · rw [if_neg deep, if_pos counts] at ended
    exact raise (.wrongCount shallow counts) callers _ ending last length ended

theorem all (items : List Expr) (bindings : Bindings) :
    Leaves depth (items.mapM evaluate) bindings (Derives most depth (.all items) bindings) := by
  induction items generalizing bindings with
  | nil => exact pure .none
  | cons item rest inductionHypothesis =>
    rw [List.mapM_cons]
    exact bind (nodes depth item bindings)
      (fun tree middle first => map ((inductionHypothesis middle).weaken
        fun _ _ later => .more first later))
      fun _ _ first => .oneFails first

theorem optional (node : Option Expr) (bindings : Bindings) :
    Leaves depth (node.mapM evaluate) bindings (Derives most depth (.optional node) bindings) := by
  cases node with
  | none => exact pure .absent
  | some node =>
    rw [Option.mapM_some, map_eq_pure_bind]
    exact map ((nodes depth node bindings).weaken fun _ _ value => .present value)

theorem cases (otherwise : Option Expr) (cases : List (Expr × Expr)) (bindings : Bindings) :
    Leaves depth (Plain.evaluateCases evaluate otherwise cases) bindings
      (Derives most depth (.cases cases otherwise) bindings) := by
  induction cases generalizing bindings with
  | nil =>
    cases otherwise with
    | none => exact pure .noCase
    | some node => exact (nodes depth node bindings).weaken fun _ _ value => .otherwise value
  | cons head rest inductionHypothesis =>
    obtain ⟨condition, body⟩ := head
    refine bind (nodes depth condition bindings) (fun tree middle first => ?_)
      fun _ _ first => .caseFails first
    cases held : tree.isTruthy with
    | true => exact (nodes depth body middle).weaken fun _ _ value => .caseHolds first held value
    | false => exact (inductionHypothesis middle).weaken fun _ _ later =>
        .caseSkipped first held later

theorem forRounds (name : String) (body : Expr) (rounds : Nat) {numbers : Progression}
    (inside : numbers.EndsOutside) (bindings : Bindings) :
    Leaves depth (Plain.forRounds (.ofDepth most) evaluate name body rounds numbers.range) bindings
      (Derives most depth (.forRounds name body numbers) bindings) := by
  induction rounds generalizing numbers bindings with
  | zero => exact unfinished
  | succ rounds inductionHypothesis =>
    by_cases before : numbers.Before
    · obtain ⟨current, stands⟩ : ∃ current, numbers.number? = some current :=
        Option.ne_none_iff_exists'.mp fun outside => inside outside before
      rw [forRounds_before _ _ _ _ before stands]
      refine afterCheckpoint (afterAssign (bind (nodes depth body _) (fun tree middle value => ?_)
        fun _ _ value => .forBodyFails before stands value))
      exact map ((inductionHypothesis (Progression.endsOutside_advanced before stands)
        middle).weaken fun _ _ later => .forRound before stands value later)
    · rw [forRounds_ended _ _ _ _ before]
      exact pure (.forEnds before)

theorem whileRounds (condition body : Expr) (rounds : Nat) (bindings : Bindings) :
    Leaves depth (Plain.whileRounds (.ofDepth most) evaluate condition body rounds) bindings
      (Derives most depth (.whileRounds condition body) bindings) := by
  induction rounds generalizing bindings with
  | zero => exact unfinished
  | succ rounds inductionHypothesis =>
    rw [Plain.whileRounds]
    refine afterCheckpoint (bind (nodes depth condition bindings) (fun held middle first => ?_)
      fun _ _ first => .whileConditionFails first)
    cases holds : held.isTruthy with
    | true =>
      refine bind (nodes depth body middle) (fun tree last value => ?_)
        fun _ _ value => .whileBodyFails first holds value
      exact map ((inductionHypothesis last).weaken fun _ _ later =>
        .whileRound first holds value later)
    | false => exact pure (.whileEnds first holds)

theorem node (rounds : Nat) (node : Expr) (bindings : Bindings) :
    Leaves depth (Plain.evaluateNode (.ofDepth most) rounds evaluate node) bindings
      (Derives most depth (.node node) bindings) := by
  cases node with
  | number span value => exact pure .number
  | string span value => exact pure .string
  | array span items =>
    exact map ((all nodes items bindings).weaken fun _ _ items => .array items)
  | lookup span name => exact lookup (fun _ known => .bound known) .unbound
  | assign span name value =>
    exact bind (nodes depth value bindings) (fun _ _ value => afterAssign (pure (.assign value)))
      fun _ _ value => .assignFails value
  | binary span op left right =>
    exact bind (nodes depth left bindings)
      (fun _ middle first => bind (nodes depth right middle)
        (fun _ _ second => ofExcept (.binary first second))
        fun _ _ second => .rightFails first second)
      fun _ _ first => .leftFails first
  | unary span op operand =>
    exact bind (nodes depth operand bindings) (fun _ _ value => ofExcept (.unary value))
      fun _ _ value => .unaryFails value
  | conditional span options otherwise =>
    exact (cases nodes otherwise options bindings).weaken fun _ _ chosen => .conditional chosen
  | forLoop span name start stop step body =>
    refine bind (nodes depth start bindings) (fun startTree started first => ?_)
      fun _ _ first => .forStartFails first
    refine bind (nodes depth stop started) (fun stopTree stopped second => ?_)
      fun _ _ second => .forStopFails first second
    refine bind (optional nodes step stopped) (fun stepTree stepped third => ?_)
      fun _ _ third => .forStepFails first second third
    rw [Progression.ofTrees_eq]
    cases bounds : Progression.ofBounds startTree stopTree
        (stepTree.getD (.number (.int 1))) with
    | error fault =>
      show Leaves depth (Plain.raise fault >>= _) stepped _
      exact raise (.forBoundsFail first second third bounds)
    | ok numbers =>
      show Leaves depth (Pure.pure numbers.range >>= _) stepped _
      rw [pure_bind]
      exact map ((forRounds nodes name body rounds (Progression.endsOutside_ofBounds bounds)
        stepped).weaken fun _ _ looped => .forLoop first second third bounds looped)
  | whileLoop span condition body =>
    exact map ((whileRounds nodes condition body rounds bindings).weaken fun _ _ looped =>
      .whileLoop looped)
  | define span name params site body =>
    cases name with
    | none => exact pure .define
    | some name => exact afterAssign (pure .defineNamed)
  | call span callee args =>
    refine bind (nodes depth callee bindings) (fun tree middle first => ?_)
      fun _ _ first => .calleeFails first
    refine bind (all nodes args middle) (fun given last second => ?_)
      fun _ _ second => .argsFail first second
    cases tree with
    | function function =>
      exact (callFunction nodes function given last).weaken fun _ _ called =>
        .call first second called
    | number | string | array | void => exact raise (.notCallable first second nofun)

end Leaves

end Plain

end Treewalk

/-
This file compares two evaluations of one program whose parts come to equal results.

Most questions about two runs of the evaluator -- on more fuel, under other limits, from another
context -- are of this kind. They need no relation between results, and so less than a simulation
asks for: a relation between runs that is kept by putting one run after another is one for related
results, too (`Sequential.simulation`). If it holds of the parts which the evaluation of a node is
put together from (`Walk`), then it holds of the evaluation of the node (`Walk.evaluateNode`).

A comparison is a relation that holds of the few runs which touch the state and is kept by the ways
of putting runs together, calls included; it then holds of whole evaluations (`Comparison.eval`).
The two sides may have different interpreters, and the first one may have more fuel. That more fuel
does no harm is asked of a comparison in the weakest form there is (`starve`): a run that is
comparable to anything is comparable to one that came to no end. Where a call as a whole is in the
relation although its parts are not, there is a walk but no comparison.
-/
import Treewalk.Proofs.Simulation

namespace Treewalk

/-! ### Runs with equal results -/

/-- A relation between runs that is kept when runs with equal results are put one after the other.
Of the faults that are raised it is asked only about those of the program. -/
structure Sequential where
  related : {Result : Type} → Run Result → Run Result → Prop
  done : ∀ {Result : Type} (result : Result), related (pure result) (pure result)
  next : ∀ {Result Other : Type} {first second : Run Result} {rest rest' : Result → Run Other},
    related first second → (∀ result, related (rest result) (rest' result)) →
      related (first >>= rest) (second >>= rest')
  raise : ∀ {Result : Type} (fault : Fault), fault.isLimit = false →
    related (Run.raise fault : Run Result) (Run.raise fault)
  newObject : related Run.newObject Run.newObject

namespace Sequential

variable (sequential : Sequential) {Result : Type} {first second : Run Result}
  {common : Result → Result → Prop}

theorem ofExcept {result : Except Fault Result} (blames : BlamesProgram result) :
    sequential.related (Run.ofExcept result) (Run.ofExcept result) := by
  cases result with
  | ok result => exact sequential.done result
  | error fault => exact sequential.raise fault (blames fault rfl)

/-- Whether two runs stay in the relation whatever is put behind them, as long as that is in the
relation for results that have something in common. Said this way, the relation is one for results
that are not equal. -/
def Through (common : Result → Result → Prop) (first second : Run Result) : Prop :=
  ∀ (Other : Type) (rest rest' : Result → Run Other),
    (∀ result result', common result result' →
      sequential.related (rest result) (rest' result')) →
    sequential.related (first >>= rest) (second >>= rest')

variable {sequential}

theorem through (related : sequential.related first second)
    (reflexive : ∀ result, common result result) : sequential.Through common first second :=
  fun _ _ _ continued =>
    sequential.next related fun result => continued result result (reflexive result)

variable (sequential)

/-- The simulation in which results are the same when they are equal. -/
def simulation : Simulation where
  World := Unit
  Later _ _ := True
  related _ meets := sequential.Through (meets ())
  same _ := Eq
  places := Eq
  done met _ rest rest' continued := by
    rw [pure_bind, pure_bind]
    exact continued _ _ met
  next start continues _ rest rest' continued := by
    rw [bind_assoc, bind_assoc]
    exact start _ _ _ fun result result' met =>
      continues () trivial result result' met _ rest rest' continued
  raise fault program _ _ _ _ := sequential.raise fault program
  keep same _ := same
  number _ := rfl
  string _ := rfl
  void := rfl
  isTruthy_eq := congrArg Value.isTruthy
  typeName_eq := congrArg Value.typeName
  newArray {_ items items'} same := by
    obtain rfl : items = items' := by rwa [List.forall₂_eq_eq_eq] at same
    exact through (sequential.next sequential.newObject fun _ => sequential.done _) fun _ => rfl
  binary op _ _ _ _ same same' := by
    subst same same'
    exact through (sequential.next sequential.newObject fun _ =>
      sequential.ofExcept (.binary _ _ _ _)) fun _ => rfl
  unary op _ _ same := by
    subst same
    exact through (sequential.ofExcept (.unary _ _)) fun _ => rfl
  range_eq same same' same'' := by
    subst same same'
    cases same'' with
    | none => rfl
    | some same => rw [same]

variable {sequential}

/-- What is in the relation is in the simulation, for anything that equal results have in common. -/
theorem simulated {world : sequential.simulation.World}
    {meets : sequential.simulation.World → Result → Result → Prop}
    (related : sequential.related first second) (reflexive : ∀ result, meets world result result) :
    sequential.simulation.related world meets first second :=
  through related reflexive

/-- The way back, with nothing put behind the runs. -/
theorem related_of_simulated {meets : sequential.simulation.World → Result → Result → Prop}
    (simulated : sequential.simulation.related () meets first second)
    (equal : ∀ result result', meets () result result' → result = result') :
    sequential.related first second := by
  have ended := simulated Result pure pure fun result result' met =>
    equal result result' met ▸ sequential.done result
  rwa [bind_pure, bind_pure] at ended

theorem eq_of_sameAll {world : sequential.simulation.World} {values values' : List Value}
    (same : sequential.simulation.SameAll world values values') : values = values' := by
  change List.Forall₂ Eq values values' at same
  rwa [List.forall₂_eq_eq_eq] at same

theorem sameAll_refl (world : sequential.simulation.World) (values : List Value) :
    sequential.simulation.SameAll world values values :=
  List.forall₂_same.mpr fun _ _ => rfl

/-! ### Ways of putting runs together -/

theorem binds (assign : ∀ name value,
      sequential.related (Run.assign name value) (Run.assign name value)) (name : String) :
    sequential.simulation.Binds name := by
  intro _ value value' same
  obtain rfl : value = value' := same
  exact simulated (assign name value) fun _ => trivial

variable (sequential)

/-- Loops that go round equally often are in the relation when their turns are. -/
theorem iterate {Loop : Type} {turn turn' : Loop → Run (Turn Loop Result)}
    (unfinished : sequential.related (Run.unfinished : Run Result) Run.unfinished)
    (turns : ∀ loop, sequential.related (turn loop) (turn' loop)) (rounds : Nat) (loop : Loop) :
    sequential.related (Run.iterate turn rounds loop) (Run.iterate turn' rounds loop) := by
  induction rounds generalizing loop with
  | zero => exact unfinished
  | succ rounds inductionHypothesis =>
    rw [Run.iterate_succ, Run.iterate_succ]
    refine sequential.next (turns loop) fun result => ?_
    cases result with
    | again loop => exact inductionHypothesis loop
    | done result => exact sequential.done result

theorem assignAll (assign : ∀ name value,
      sequential.related (Run.assign name value) (Run.assign name value))
    (names : List String) (values : List Value) :
    sequential.related (Run.assignAll names values) (Run.assignAll names values) :=
  related_of_simulated
    (sequential.simulation.assignAll () (binds assign) names (sameAll_refl () values))
    fun _ _ _ => rfl

/-! ### Nodes -/

variable {evaluate evaluate' : Expr → Run Value}
  (nodes : ∀ node, sequential.related (evaluate node) (evaluate' node))

include nodes

theorem evaluateAll (items : List Expr) :
    sequential.related (Expr.evaluateAll evaluate items) (Expr.evaluateAll evaluate' items) := by
  have alike : List.Forall₂ (sequential.simulation.Nodes evaluate evaluate') items items :=
    List.forall₂_same.mpr fun item _ _ => simulated (nodes item) fun _ => rfl
  exact related_of_simulated (Simulation.evaluateAll alike) fun _ _ => eq_of_sameAll

/-- A node goes together with itself. -/
theorem corresponds (lookup : ∀ name, sequential.related (Run.lookup name) (Run.lookup name))
    (assign : ∀ name value,
      sequential.related (Run.assign name value) (Run.assign name value)) (node : Expr) :
    sequential.simulation.Corresponds evaluate evaluate' node node :=
  .refl (fun child _ _ => simulated (nodes child) fun _ => rfl) (fun _ _ => rfl)
    (fun name _ _ => simulated (lookup name) fun _ => rfl) (fun name _ => binds assign name)
    fun _ => rfl

end Sequential

/-! ### Walks -/

/-- A relation between runs that holds of all the parts which the evaluation of a node is put
together from, and is kept when they are put one after the other. The two sides may differ in their
interpreters, in how other nodes are evaluated and in how often a loop may go round. What happens at
a limit is a matter of `checkpoint` and `callFunction`. -/
structure Walk (more less : Interpreter) (rounds rounds' : Nat)
    (evaluate evaluate' : Expr → Run Value) extends Sequential where
  forFinished : ∀ name rounds,
    related (Run.record (.forFinished name rounds)) (Run.record (.forFinished name rounds))
  whileFinished : ∀ rounds,
    related (Run.record (.whileFinished rounds)) (Run.record (.whileFinished rounds))
  lookup : ∀ name, related (Run.lookup name) (Run.lookup name)
  assign : ∀ name value, related (Run.assign name value) (Run.assign name value)
  checkpoint : related more.checkpoint less.checkpoint
  iterate : ∀ {Loop Result : Type} {turn turn' : Loop → Run (Turn Loop Result)},
    (∀ loop, related (turn loop) (turn' loop)) →
      ∀ loop, related (Run.iterate turn rounds loop) (Run.iterate turn' rounds' loop)
  nodes : ∀ node, related (evaluate node) (evaluate' node)
  callFunction : ∀ function args span,
    related (more.callFunction evaluate function args span)
      (less.callFunction evaluate' function args span)

namespace Walk

open Treewalk.Sequential (simulated related_of_simulated eq_of_sameAll sameAll_refl)

variable {more less : Interpreter} {rounds rounds' : Nat} {evaluate evaluate' : Expr → Run Value}
  (walk : Walk more less rounds rounds' evaluate evaluate')

/-- The rounds of a loop are in the relation since its turns are. -/
theorem loops : walk.simulation.Loops more less rounds rounds' evaluate evaluate' where
  forLoop {name body body'} world range target bodies := by
    have turns : ∀ loop, walk.related (Expr.forTurn more evaluate name body loop)
        (Expr.forTurn less evaluate' name body' loop) := by
      intro (range, values)
      refine related_of_simulated (Simulation.forTurn
        (fun _ => simulated walk.checkpoint fun _ => trivial) target bodies range
        (sameAll_refl () values)) fun turn turn' same => ?_
      cases same with
      | again same => rw [Prod.ext same.1 (eq_of_sameAll same.2)]
      | done same => rw [eq_of_sameAll same]
    exact Simulation.finish
      (fun _ count => simulated (walk.forFinished name count) fun _ => trivial)
      (simulated (walk.iterate turns (range, [])) fun values => sameAll_refl _ values)
  whileLoop {condition condition' body body'} world conditions bodies := by
    have turns : ∀ values, walk.related (Expr.whileTurn more evaluate condition body values)
        (Expr.whileTurn less evaluate' condition' body' values) := by
      intro values
      refine related_of_simulated (Simulation.whileTurn
        (fun _ => simulated walk.checkpoint fun _ => trivial) conditions bodies
        (sameAll_refl () values)) fun turn turn' same => ?_
      cases same with
      | again same => rw [eq_of_sameAll same]
      | done same => rw [eq_of_sameAll same]
    exact Simulation.finish (fun _ count => simulated (walk.whileFinished count) fun _ => trivial)
      (simulated (walk.iterate turns []) fun values => sameAll_refl _ values)

/-- What holds of its parts holds of the evaluation of a node. -/
theorem evaluateNode (node : Expr) :
    walk.related (Expr.evaluateNode more rounds evaluate node)
      (Expr.evaluateNode less rounds' evaluate' node) := by
  have alike : walk.simulation.Corresponds evaluate evaluate' node node :=
    walk.toSequential.corresponds walk.nodes walk.lookup walk.assign node
  have calls : walk.simulation.Calls more less evaluate evaluate' := by
    intro _ function function' args args' span span' place same given
    obtain rfl : span = span' := place
    obtain rfl : function = function' := Value.function.inj same
    obtain rfl : args = args' := eq_of_sameAll given
    exact simulated (walk.callFunction function args span) fun _ => rfl
  exact related_of_simulated (Simulation.evaluateNode alike walk.loops (fun _ => calls) ())
    fun _ _ => id

end Walk

/-! ### Comparisons -/

/-- A relation between the runs of two interpreters that every way of putting runs together
keeps. Of the runs that fail it is asked only about those that fail for the program; what happens
at a limit is a matter of `checkpoint` and `descend`. -/
structure Comparison (more less : Interpreter) extends Sequential where
  starve : ∀ {Result : Type} {first second : Run Result},
    related first second → related first Run.unfinished
  unfinished : ∀ {Result : Type}, related (Run.unfinished : Run Result) Run.unfinished
  record : ∀ event, related (Run.record event) (Run.record event)
  enter : ∀ node, related (Run.enter node) (Run.enter node)
  lookup : ∀ name, related (Run.lookup name) (Run.lookup name)
  assign : ∀ name value, related (Run.assign name value) (Run.assign name value)
  checkpoint : related more.checkpoint less.checkpoint
  descend : ∀ {Result : Type} {first second : Run Result},
    related first second → related (more.descend first) (less.descend second)
  stamped : ∀ {Result : Type} {first second : Run Result} (span : Span),
    related first second → related (Run.stamped span first) (Run.stamped span second)
  between : ∀ {Result : Type} {first second : Run Result} (function : String) (args : Nat),
    related first second →
      related (Run.between (.callEntered function args) (.callLeft function args) first)
        (Run.between (.callEntered function args) (.callLeft function args) second)
  inFrame : ∀ {Result : Type} {first second : Run Result} (name : String) (entry : Span),
    related first second → related (Run.inFrame name entry first) (Run.inFrame name entry second)

namespace Comparison

variable {more less : Interpreter} (comparison : Comparison more less) {Result Loop : Type}

/-! ### Ways of putting runs together -/

theorem assignAll (names : List String) (values : List Value) :
    comparison.related (Run.assignAll names values) (Run.assignAll names values) :=
  comparison.toSequential.assignAll comparison.assign names values

theorem iterate_same {turn turn' : Loop → Run (Turn Loop Result)}
    (turns : ∀ loop, comparison.related (turn loop) (turn' loop)) (rounds : Nat) (loop : Loop) :
    comparison.related (Run.iterate turn rounds loop) (Run.iterate turn' rounds loop) :=
  comparison.toSequential.iterate comparison.unfinished turns rounds loop

/-- The first side may go round more often. -/
theorem iterate {turn turn' : Loop → Run (Turn Loop Result)}
    (turns : ∀ loop, comparison.related (turn loop) (turn' loop)) {rounds rounds' : Nat}
    (enough : rounds' ≤ rounds) (loop : Loop) :
    comparison.related (Run.iterate turn rounds loop) (Run.iterate turn' rounds' loop) := by
  induction rounds' generalizing rounds loop with
  | zero => exact comparison.starve (comparison.iterate_same turns rounds loop)
  | succ rounds' inductionHypothesis =>
    obtain ⟨rounds, rfl⟩ : ∃ fewer, rounds = fewer + 1 := ⟨rounds - 1, by omega⟩
    rw [Run.iterate_succ, Run.iterate_succ]
    refine comparison.next (turns loop) fun result => ?_
    cases result with
    | again next => exact inductionHypothesis (by omega) next
    | done result => exact comparison.done result

/-! ### Nodes -/

variable {evaluate evaluate' : Expr → Run Value}

theorem callFunction (nodes : ∀ node, comparison.related (evaluate node) (evaluate' node))
    (function : Function) (args : List Value) (span : Span) :
    comparison.related (more.callFunction evaluate function args span)
      (less.callFunction evaluate' function args span) := by
  rw [Interpreter.callFunction_eq, Interpreter.callFunction_eq]
  refine comparison.between _ _ (comparison.next comparison.checkpoint fun _ =>
    comparison.descend ?_)
  unfold Interpreter.enterBody
  split
  · exact comparison.raise _ rfl
  · exact comparison.inFrame _ _ (comparison.next (comparison.assignAll _ _) fun _ => nodes _)

/-- A comparison is a walk, wherever it relates how other nodes are evaluated. -/
def walk (nodes : ∀ node, comparison.related (evaluate node) (evaluate' node))
    {rounds rounds' : Nat} (enough : rounds' ≤ rounds) :
    Walk more less rounds rounds' evaluate evaluate' where
  toSequential := comparison.toSequential
  forFinished _ _ := comparison.record _
  whileFinished _ := comparison.record _
  lookup := comparison.lookup
  assign := comparison.assign
  checkpoint := comparison.checkpoint
  iterate turns := comparison.iterate turns enough
  nodes := nodes
  callFunction := comparison.callFunction nodes

theorem visit (nodes : ∀ node, comparison.related (evaluate node) (evaluate' node))
    {rounds rounds' : Nat} (enough : rounds' ≤ rounds) (node : Expr) :
    comparison.related (Expr.visit more rounds evaluate node)
      (Expr.visit less rounds' evaluate' node) := by
  rw [Expr.visit_eq, Expr.visit_eq]
  exact comparison.stamped _ (comparison.next (comparison.enter node) fun _ =>
    (comparison.walk nodes enough).evaluateNode node)

/-! ### Evaluation -/

theorem eval_same (fuel : Nat) (node : Expr) :
    comparison.related (Expr.eval more fuel node) (Expr.eval less fuel node) := by
  induction fuel generalizing node with
  | zero => exact comparison.unfinished
  | succ fuel inductionHypothesis =>
    exact comparison.visit inductionHypothesis (Nat.le_refl fuel) node

/-- What is true of the runs that touch the state is true of whole evaluations, and the first side
may have more fuel. -/
theorem eval {fuel fuel' : Nat} (enough : fuel' ≤ fuel) (node : Expr) :
    comparison.related (Expr.eval more fuel node) (Expr.eval less fuel' node) := by
  induction fuel' generalizing fuel node with
  | zero => exact comparison.starve (comparison.eval_same fuel node)
  | succ fuel' inductionHypothesis =>
    obtain ⟨fuel, rfl⟩ : ∃ fewer, fuel = fewer + 1 := ⟨fuel - 1, by omega⟩
    exact comparison.visit (fun node => inductionHypothesis (by omega) node) (by omega) node

end Comparison

end Treewalk

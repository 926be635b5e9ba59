/-
This file walks through the evaluator with two evaluations side by side.

What is said of two runs is left open. It is a relation between runs, given what their results have
in common, and it may depend on a world: on something that only grows while an evaluation goes on,
such as the array objects there are. Such a relation is asked about the few runs that are no runs of
other nodes, and about putting one run after another (`Simulation`). It then holds of two nodes of
one kind whenever it holds of their parts (`Simulation.evaluateNode`): this is the only proof that
follows what a node of each kind does.

Two things are left to whoever has such a relation, since they are where relations differ: what
happens in the rounds of a loop, and in calls. For a relation that holds of checkpoints and of what
is written into the journal the rounds follow from the rest (`Simulation.loops`).
-/
import Mathlib.Data.List.Forall2
import Treewalk.Proofs.Children
import Treewalk.Proofs.Faults
import Treewalk.Proofs.Parts

namespace Treewalk

variable {Result Other Loop : Type}

/-! ### Nodes of one kind -/

/-- Whether two nodes are of one kind. They may differ in spans, and in parts that go together one
by one; definitions may differ in what their functions do. The names that are read and bound are the
same, and may be restricted. -/
inductive Expr.Corresponds (parts : Expr → Expr → Prop) (functions : Function → Function → Prop)
    (reads binds : String → Prop) (places : Span → Span → Prop) : Expr → Expr → Prop
  | number {span span' : Span} (value : Number) :
    Corresponds parts functions reads binds places (.number span value) (.number span' value)
  | string {span span' : Span} (value : String) :
    Corresponds parts functions reads binds places (.string span value) (.string span' value)
  | array {span span' : Span} {items items' : List Expr} (alike : List.Forall₂ parts items items') :
    Corresponds parts functions reads binds places (.array span items) (.array span' items')
  | lookup {span span' : Span} {name : String} (mentioned : reads name) :
    Corresponds parts functions reads binds places (.lookup span name) (.lookup span' name)
  | assign {span span' : Span} {name : String} {value value' : Expr} (target : binds name)
    (alike : parts value value') :
    Corresponds parts functions reads binds places (.assign span name value)
      (.assign span' name value')
  | binary {span span' : Span} (op : BinaryOperator) {left left' right right' : Expr}
    (first : parts left left') (second : parts right right') :
    Corresponds parts functions reads binds places (.binary span op left right)
      (.binary span' op left' right')
  | unary {span span' : Span} (op : UnaryOperator) {operand operand' : Expr}
    (alike : parts operand operand') :
    Corresponds parts functions reads binds places (.unary span op operand)
      (.unary span' op operand')
  | conditional {span span' : Span} {cases cases' : List (Expr × Expr)}
    {otherwise otherwise' : Option Expr}
    (alike : List.Forall₂ (fun case case' => parts case.1 case'.1 ∧ parts case.2 case'.2) cases
      cases')
    (others : Option.Rel parts otherwise otherwise') :
    Corresponds parts functions reads binds places (.conditional span cases otherwise)
      (.conditional span' cases' otherwise')
  | forLoop {span span' : Span} {name : String} {start start' stop stop' : Expr}
    {step step' : Option Expr} {body body' : Expr} (target : binds name)
    (first : parts start start') (second : parts stop stop') (third : Option.Rel parts step step')
    (bodies : parts body body') :
    Corresponds parts functions reads binds places (.forLoop span name start stop step body)
      (.forLoop span' name start' stop' step' body')
  | whileLoop {span span' : Span} {condition condition' body body' : Expr}
    (conditions : parts condition condition') (bodies : parts body body') :
    Corresponds parts functions reads binds places (.whileLoop span condition body)
      (.whileLoop span' condition' body')
  | define {span span' : Span} {name : Option String} {params : List String} {site site' : Nat}
    {body body' : Expr} (target : ∀ bound, name = some bound → binds bound)
    (values : functions ⟨name, params, site, body⟩ ⟨name, params, site', body'⟩) :
    Corresponds parts functions reads binds places (.define span name params site body)
      (.define span' name params site' body')
  | call {span span' : Span} {callee callee' : Expr} {args args' : List Expr}
    (place : places span span') (callees : parts callee callee')
    (alike : List.Forall₂ parts args args') :
    Corresponds parts functions reads binds places (.call span callee args)
      (.call span' callee' args')

/-- A node corresponds to itself if its children go together with themselves. -/
theorem Expr.Corresponds.refl {parts : Expr → Expr → Prop}
    {functions : Function → Function → Prop} {reads binds : String → Prop}
    {places : Span → Span → Prop} {node : Expr}
    (children : ∀ child ∈ node.children, parts child child)
    (same : ∀ function, functions function function)
    (read : ∀ name, node.name? = some name → reads name)
    (bound : ∀ name, node.target? = some name → binds name) (place : ∀ span, places span span) :
    Corresponds parts functions reads binds places node node := by
  cases node with
  | number span value => exact .number value
  | string span value => exact .string value
  | array span items => exact .array (List.forall₂_same.mpr children)
  | lookup span name => exact .lookup (read name rfl)
  | assign span name value =>
    exact .assign (bound name rfl) (children value List.mem_cons_self)
  | binary span op left right =>
    exact .binary op (children left (by simp [Expr.children]))
      (children right (by simp [Expr.children]))
  | unary span op operand => exact .unary op (children operand List.mem_cons_self)
  | conditional span cases otherwise =>
    refine .conditional (List.forall₂_same.mpr fun case member => ?_) ?_
    · have parts : ∀ part ∈ [case.1, case.2], parts part part := fun part inside =>
        children part (List.mem_append_left _ (List.mem_flatMap.mpr ⟨case, member, inside⟩))
      exact ⟨parts case.1 (by simp), parts case.2 (by simp)⟩
    · cases otherwise with
      | none => exact .none
      | some node => exact .some (children node (by simp [Expr.children]))
  | forLoop span name start stop step body =>
    refine .forLoop (bound name rfl) (children start (by simp [Expr.children]))
      (children stop (by simp [Expr.children])) ?_ (children body (by simp [Expr.children]))
    cases step with
    | none => exact .none
    | some step => exact .some (children step (by simp [Expr.children]))
  | whileLoop span condition body =>
    exact .whileLoop (children condition (by simp [Expr.children]))
      (children body (by simp [Expr.children]))
  | define span name params site body => exact .define bound (same _)
  | call span callee args =>
    exact .call (place span) (children callee List.mem_cons_self)
      (List.forall₂_same.mpr fun arg member => children arg (List.mem_cons_of_mem _ member))

/-! ### Images and types -/

/-- Lists have equal images when their items have, one by one. -/
theorem map_eq_map_iff_forall₂ {Image : Type} {image : Result → Image} {image' : Other → Image}
    {items : List Result} {items' : List Other} :
    items.map image = items'.map image' ↔
      List.Forall₂ (fun item item' => image item = image' item') items items' := by
  rw [← List.forall₂_eq_eq_eq, List.forall₂_map_left_iff, List.forall₂_map_right_iff]

theorem map_eq_map_iff_rel {Image : Type} {image : Result → Image} {image' : Other → Image}
    {item : Option Result} {item' : Option Other} :
    item.map image = item'.map image' ↔
      Option.Rel (fun item item' => image item = image' item') item item' := by
  cases item <;> cases item' <;> simp

/-- Functions are told from other values by the name of their type. -/
theorem Value.exists_function_of_typeName {value : Value} (named : value.typeName = "function") :
    ∃ function, value = .function function := by
  cases value with
  | number value => cases value <;> simp [typeName, Number.typeName] at named
  | function function => exact ⟨function, rfl⟩
  | string | array | void => simp [typeName] at named

/-! ### Simulations -/

/-- Whether two turns of a loop go on alike. -/
inductive Turn.Same (loops : Loop → Loop → Prop) (results : Result → Result → Prop) :
    Turn Loop Result → Turn Loop Result → Prop
  | again {loop loop' : Loop} (same : loops loop loop') :
    Same loops results (.again loop) (.again loop')
  | done {result result' : Result} (same : results result result') :
    Same loops results (.done result) (.done result')

/-- A relation between runs that holds of all the parts which the evaluation of a node is put
together from, other nodes, names, loops and calls apart. `related world meets` is said of two runs
that start in a world; `meets` is what their results have in common in the world that they come to.
Of the faults that are raised it is asked only about those of the program. -/
structure Simulation where
  World : Type
  Later : World → World → Prop
  related : {Result : Type} → World → (World → Result → Result → Prop) → Run Result →
    Run Result → Prop
  /-- What the values of two nodes have in common. -/
  same : World → Value → Value → Prop
  /-- What the spans of two calls have in common. -/
  places : Span → Span → Prop
  done : ∀ {Result : Type} {world : World} {meets : World → Result → Result → Prop}
    {result result' : Result}, meets world result result' →
      related world meets (pure result) (pure result')
  next : ∀ {Result Other : Type} {world : World} {meets : World → Result → Result → Prop}
    {meets' : World → Other → Other → Prop} {first second : Run Result}
    {rest rest' : Result → Run Other}, related world meets first second →
      (∀ later, Later world later → ∀ result result', meets later result result' →
        related later meets' (rest result) (rest' result')) →
      related world meets' (first >>= rest) (second >>= rest')
  raise : ∀ {Result : Type} {world : World} {meets : World → Result → Result → Prop}
    (fault : Fault), fault.isLimit = false →
      related world meets (Run.raise fault : Run Result) (Run.raise fault)
  keep : ∀ {world later value value'}, same world value value' → Later world later →
    same later value value'
  number : ∀ {world} value, same world (.number value) (.number value)
  string : ∀ {world} value, same world (.string value) (.string value)
  void : ∀ {world}, same world .void .void
  isTruthy_eq : ∀ {world value value'}, same world value value' →
    value.isTruthy = value'.isTruthy
  typeName_eq : ∀ {world value value'}, same world value value' →
    value.typeName = value'.typeName
  newArray : ∀ {world items items'}, List.Forall₂ (same world) items items' →
    related world same (Run.newArray items) (Run.newArray items')
  binary : ∀ {world} (op : BinaryOperator) {left left' right right'}, same world left left' →
    same world right right' →
      related world same (Run.newObject >>= fun object => Run.ofExcept (op.apply object left right))
        (Run.newObject >>= fun object => Run.ofExcept (op.apply object left' right'))
  unary : ∀ {world} (op : UnaryOperator) {operand operand'}, same world operand operand' →
    related world same (Run.ofExcept (op.apply operand)) (Run.ofExcept (op.apply operand'))
  range_eq : ∀ {world start start' stop stop' step step'}, same world start start' →
    same world stop stop' → Option.Rel (same world) step step' →
      Range.ofBounds start stop step = Range.ofBounds start' stop' step'

namespace Simulation

variable (simulation : Simulation)

/-! ### What is asked of the parts of a node -/

/-- Whether two nodes are in the relation. -/
def Nodes (evaluate evaluate' : Expr → Run Value) (node node' : Expr) : Prop :=
  ∀ world, simulation.related world simulation.same (evaluate node) (evaluate' node')

/-- Whether two functions are the same for the relation. -/
def Functions (function function' : Function) : Prop :=
  ∀ world, simulation.same world (.function function) (.function function')

/-- Whether a name may be read. -/
def Reads (name : String) : Prop :=
  ∀ world, simulation.related world simulation.same (Run.lookup name) (Run.lookup name)

/-- Whether a name may be bound. -/
def Binds (name : String) : Prop :=
  ∀ world value value', simulation.same world value value' →
    simulation.related world (fun _ _ _ => True) (Run.assign name value) (Run.assign name value')

/-- Whether two nodes are of one kind with parts that are in the relation. -/
abbrev Corresponds (evaluate evaluate' : Expr → Run Value) : Expr → Expr → Prop :=
  Expr.Corresponds (simulation.Nodes evaluate evaluate') simulation.Functions simulation.Reads
    simulation.Binds simulation.places

/-- What lists of values have in common. -/
abbrev SameAll (world : simulation.World) : List Value → List Value → Prop :=
  List.Forall₂ (simulation.same world)

/-- What counting loops have in common that are under way. -/
abbrev SameLoop (world : simulation.World) (loop loop' : Range × List Value) : Prop :=
  loop.1 = loop'.1 ∧ simulation.SameAll world loop.2 loop'.2

/-- Whether loops with the same heads and bodies that are in the relation are in the relation, a
counting loop from when its range is known. -/
structure Loops (more less : Interpreter) (rounds rounds' : Nat)
    (evaluate evaluate' : Expr → Run Value) : Prop where
  forLoop : ∀ {name body body'} world (range : Range), simulation.Binds name →
    simulation.Nodes evaluate evaluate' body body' →
      simulation.related world simulation.same
        (Run.iterate (Expr.forTurn more evaluate name body) rounds (range, []) >>= fun values =>
          Run.record (.forFinished name values.length) >>= fun _ => Run.newArray values)
        (Run.iterate (Expr.forTurn less evaluate' name body') rounds' (range, []) >>= fun values =>
          Run.record (.forFinished name values.length) >>= fun _ => Run.newArray values)
  whileLoop : ∀ {condition condition' body body'} world,
    simulation.Nodes evaluate evaluate' condition condition' →
    simulation.Nodes evaluate evaluate' body body' →
      simulation.related world simulation.same
        (Run.iterate (Expr.whileTurn more evaluate condition body) rounds [] >>= fun values =>
          Run.record (.whileFinished values.length) >>= fun _ => Run.newArray values)
        (Run.iterate (Expr.whileTurn less evaluate' condition' body') rounds' [] >>= fun values =>
          Run.record (.whileFinished values.length) >>= fun _ => Run.newArray values)

/-- Whether calls of functions that are the same are in the relation. -/
def Calls (more less : Interpreter) (evaluate evaluate' : Expr → Run Value) : Prop :=
  ∀ {world function function' args args' span span'}, simulation.places span span' →
    simulation.same world (.function function) (.function function') →
    simulation.SameAll world args args' →
      simulation.related world simulation.same (more.callFunction evaluate function args span)
        (less.callFunction evaluate' function' args' span')

variable {simulation} {world later : simulation.World}

theorem keepAll {values values' : List Value} (same : simulation.SameAll world values values')
    (after : simulation.Later world later) : simulation.SameAll later values values' :=
  same.imp fun _ _ same => simulation.keep same after

theorem reverse {values values' : List Value} (same : simulation.SameAll world values values') :
    simulation.SameAll world values.reverse values'.reverse :=
  List.rel_reverse same

/-- Names may be bound one after the other, as far as there are values for them. -/
theorem assignAll (simulation : Simulation) (world : simulation.World)
    (binds : ∀ name, simulation.Binds name) (names : List String) {values values' : List Value}
    (same : simulation.SameAll world values values') :
    simulation.related world (fun _ _ _ => True) (Run.assignAll names values)
      (Run.assignAll names values') := by
  induction names generalizing world values values' with
  | nil => exact simulation.done trivial
  | cons name names inductionHypothesis =>
    cases same with
    | nil => exact simulation.done trivial
    | cons first rest =>
      exact simulation.next (binds name world _ _ first) fun later after _ _ _ =>
        inductionHypothesis later (keepAll rest after)

/-! ### Parts of nodes -/

section

variable {evaluate evaluate' : Expr → Run Value}

theorem ofExcept {result : Except Fault Result} (blames : BlamesProgram result) :
    simulation.related world (fun _ => Eq) (Run.ofExcept result) (Run.ofExcept result) := by
  cases result with
  | ok result => exact simulation.done rfl
  | error fault => exact simulation.raise fault (blames fault rfl)

theorem evaluateAll {items items' : List Expr}
    (alike : List.Forall₂ (simulation.Nodes evaluate evaluate') items items') :
    simulation.related world simulation.SameAll (Expr.evaluateAll evaluate items)
      (Expr.evaluateAll evaluate' items') := by
  induction alike generalizing world with
  | nil => exact simulation.done .nil
  | cons first _ inductionHypothesis =>
    exact simulation.next (first world) fun _ _ _ _ value =>
      simulation.next inductionHypothesis fun _ after _ _ values =>
        simulation.done (.cons (simulation.keep value after) values)

theorem evaluateOptional {node node' : Option Expr}
    (alike : Option.Rel (simulation.Nodes evaluate evaluate') node node') :
    simulation.related world (fun later => Option.Rel (simulation.same later))
      (Expr.evaluateOptional evaluate node) (Expr.evaluateOptional evaluate' node') := by
  cases alike with
  | none => exact simulation.done .none
  | some alike => exact simulation.next (alike world) fun _ _ _ _ value =>
      simulation.done (.some value)

theorem evaluateCases {cases cases' : List (Expr × Expr)} {otherwise otherwise' : Option Expr}
    (alike : List.Forall₂ (fun case case' => simulation.Nodes evaluate evaluate' case.1 case'.1 ∧
      simulation.Nodes evaluate evaluate' case.2 case'.2) cases cases')
    (others : Option.Rel (simulation.Nodes evaluate evaluate') otherwise otherwise') :
    simulation.related world simulation.same (Expr.evaluateCases evaluate otherwise cases)
      (Expr.evaluateCases evaluate' otherwise' cases') := by
  induction alike generalizing world with
  | nil =>
    cases others with
    | none => exact simulation.done simulation.void
    | some other => exact other world
  | cons first _ inductionHypothesis =>
    refine simulation.next (first.1 world) fun later _ value value' held => ?_
    rw [simulation.isTruthy_eq held]
    split
    · exact first.2 later
    · exact inductionHypothesis

theorem callValue {more less : Interpreter} (calls : simulation.Calls more less evaluate evaluate')
    {callee callee' : Value} {args args' : List Value}
    (given : simulation.SameAll world args args') {span span' : Span}
    (place : simulation.places span span') :
    simulation.same world callee callee' → simulation.related world simulation.same
      (match callee with
        | .function function => more.callFunction evaluate function args span
        | other => Run.raise (.notCallable other.typeName))
      (match callee' with
        | .function function => less.callFunction evaluate' function args' span'
        | other => Run.raise (.notCallable other.typeName)) := by
  intro called
  have types := simulation.typeName_eq called
  cases callee with
  | function function =>
    obtain ⟨function', rfl⟩ := Value.exists_function_of_typeName types.symm
    exact calls place called given
  | number | string | array | void =>
    cases callee' with
    | function =>
      obtain ⟨function, same⟩ := Value.exists_function_of_typeName types
      cases same
    | number | string | array | void =>
      dsimp only
      rw [types]
      exact simulation.raise _ rfl

end

/-! ### Loops -/

section

variable {more less : Interpreter} {evaluate evaluate' : Expr → Run Value}
  (checkpoint : ∀ world,
    simulation.related world (fun _ _ _ => True) more.checkpoint less.checkpoint)

include checkpoint

theorem forTurn {name : String} {body body' : Expr} (target : simulation.Binds name)
    (bodies : simulation.Nodes evaluate evaluate' body body') (range : Range)
    {values values' : List Value} (same : simulation.SameAll world values values') :
    simulation.related world
      (fun later => Turn.Same (simulation.SameLoop later) (simulation.SameAll later))
      (Expr.forTurn more evaluate name body (range, values))
      (Expr.forTurn less evaluate' name body' (range, values')) := by
  dsimp only [Expr.forTurn]
  rcases range.next with ⟨_ | current, rest⟩
  · exact simulation.done (.done (reverse same))
  · refine simulation.next (checkpoint world) fun counted first _ _ _ =>
      simulation.next (target counted _ _ (simulation.number current)) fun bound second _ _ _ =>
      simulation.next (bodies bound) fun last third _ _ value => simulation.done ?_
    exact .again ⟨rfl, .cons value (keepAll (keepAll (keepAll same first) second) third)⟩

theorem whileTurn {condition condition' body body' : Expr}
    (conditions : simulation.Nodes evaluate evaluate' condition condition')
    (bodies : simulation.Nodes evaluate evaluate' body body') {values values' : List Value}
    (same : simulation.SameAll world values values') :
    simulation.related world
      (fun later => Turn.Same (simulation.SameAll later) (simulation.SameAll later))
      (Expr.whileTurn more evaluate condition body values)
      (Expr.whileTurn less evaluate' condition' body' values') := by
  refine simulation.next (checkpoint world) fun counted first _ _ _ =>
    simulation.next (conditions counted) fun tested second value value' held => ?_
  have same' := keepAll (keepAll same first) second
  rw [simulation.isTruthy_eq held]
  split
  · exact simulation.next (bodies tested) fun _ third _ _ value =>
      simulation.done (.again (.cons value (keepAll same' third)))
  · exact simulation.done (.done (reverse same'))

end

section

variable {more less : Interpreter} {evaluate evaluate' : Expr → Run Value}

/-- Loops that go round equally often are in the relation when their turns are. -/
theorem iterate (unfinished : ∀ {Result : Type} world
      (meets : simulation.World → Result → Result → Prop),
      simulation.related world meets Run.unfinished Run.unfinished)
    {loops : simulation.World → Loop → Loop → Prop}
    {results : simulation.World → Result → Result → Prop}
    {turn turn' : Loop → Run (Turn Loop Result)}
    (turns : ∀ world loop loop', loops world loop loop' →
      simulation.related world (fun later => Turn.Same (loops later) (results later)) (turn loop)
        (turn' loop'))
    (rounds : Nat) {loop loop' : Loop} (alike : loops world loop loop') :
    simulation.related world results (Run.iterate turn rounds loop)
      (Run.iterate turn' rounds loop') := by
  induction rounds generalizing world loop loop' with
  | zero => exact unfinished world results
  | succ rounds inductionHypothesis =>
    rw [Run.iterate_succ, Run.iterate_succ]
    refine simulation.next (turns world loop loop' alike) fun later _ turned turned' alike => ?_
    cases alike with
    | again alike => exact inductionHypothesis alike
    | done results => exact simulation.done results

/-- What a loop does when its rounds are over. -/
theorem finish {event : Nat → Event} (record : ∀ world count,
      simulation.related world (fun _ _ _ => True) (Run.record (event count))
        (Run.record (event count)))
    {first second : Run (List Value)}
    (rounds : simulation.related world simulation.SameAll first second) :
    simulation.related world simulation.same
      (first >>= fun values => Run.record (event values.length) >>= fun _ => Run.newArray values)
      (second >>= fun values => Run.record (event values.length) >>= fun _ =>
        Run.newArray values) := by
  refine simulation.next rounds fun later _ values values' same => ?_
  rw [same.length_eq]
  exact simulation.next (record later values'.length) fun _ after _ _ _ =>
    simulation.newArray (keepAll same after)

/-- A relation that holds of checkpoints, and of runs that were not given enough fuel, holds of
loops on the same fuel. -/
theorem loops
    (checkpoint : ∀ world,
      simulation.related world (fun _ _ _ => True) more.checkpoint less.checkpoint)
    (record : ∀ world event,
      simulation.related world (fun _ _ _ => True) (Run.record event) (Run.record event))
    (unfinished : ∀ {Result : Type} world (meets : simulation.World → Result → Result → Prop),
      simulation.related world meets Run.unfinished Run.unfinished) (rounds : Nat) :
    simulation.Loops more less rounds rounds evaluate evaluate' where
  forLoop {name _ _} world range target bodies := by
    have start : simulation.SameLoop world (range, []) (range, []) := ⟨rfl, .nil⟩
    refine finish (fun world _ => record world _)
      (iterate unfinished (fun world loop loop' same => ?_) rounds start)
    obtain ⟨range, values⟩ := loop
    obtain ⟨range', values'⟩ := loop'
    obtain ⟨rfl, same⟩ : range = range' ∧ simulation.SameAll world values values' := same
    exact forTurn checkpoint target bodies range same
  whileLoop world conditions bodies := by
    have start : simulation.SameAll world [] [] := .nil
    exact finish (fun world _ => record world _) (iterate unfinished
      (fun _ _ _ same => whileTurn checkpoint conditions bodies same) rounds start)

/-! ### Nodes -/

/-- What holds of the parts of two nodes of one kind holds of their evaluations. -/
theorem evaluateNode {rounds rounds' : Nat} {node node' : Expr}
    (alike : simulation.Corresponds evaluate evaluate' node node')
    (loops : simulation.Loops more less rounds rounds' evaluate evaluate')
    (calls : node.kind = "Call" → simulation.Calls more less evaluate evaluate')
    (world : simulation.World) :
    simulation.related world simulation.same (Expr.evaluateNode more rounds evaluate node)
      (Expr.evaluateNode less rounds' evaluate' node') := by
  cases alike with
  | number value => exact simulation.done (simulation.number value)
  | string value => exact simulation.done (simulation.string value)
  | array alike =>
    exact simulation.next (evaluateAll alike) fun _ _ _ _ values => simulation.newArray values
  | lookup mentioned => exact mentioned world
  | assign target alike =>
    exact simulation.next (alike world) fun given _ _ _ value =>
      simulation.next (target given _ _ value) fun _ after _ _ _ =>
        simulation.done (simulation.keep value after)
  | binary op first second =>
    exact simulation.next (first world) fun middle _ _ _ left =>
      simulation.next (second middle) fun _ after _ _ right =>
        simulation.binary op (simulation.keep left after) right
  | unary op alike =>
    exact simulation.next (alike world) fun _ _ _ _ value => simulation.unary op value
  | conditional alike others => exact evaluateCases alike others
  | forLoop target first second third bodies =>
    refine simulation.next (first world) fun started _ start start' given =>
      simulation.next (second started) fun stopped after stop stop' given' =>
      simulation.next (evaluateOptional third) fun stepped after' step step' given'' => ?_
    have bounds := simulation.range_eq (simulation.keep (simulation.keep given after) after')
      (simulation.keep given' after') given''
    rw [bounds]
    refine simulation.next (ofExcept (.range _ _ _)) fun ranged _ range range' same => ?_
    subst same
    exact loops.forLoop ranged range target bodies
  | whileLoop conditions bodies => exact loops.whileLoop world conditions bodies
  | @define _ _ name _ _ _ _ _ target values =>
    cases name with
    | none => exact simulation.done (values world)
    | some name =>
      exact simulation.next (target name rfl world _ _ (values world)) fun later _ _ _ _ =>
        simulation.done (values later)
  | call place callees alike =>
    exact simulation.next (callees world) fun _ _ _ _ called =>
      simulation.next (evaluateAll alike) fun _ after _ _ given =>
        callValue (calls rfl) given place (simulation.keep called after)

end

end Simulation

end Treewalk

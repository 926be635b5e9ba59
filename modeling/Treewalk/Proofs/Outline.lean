/-
This file proves that source positions never influence a program.

Spans are what failures and frames are marked with, and nothing is ever decided by one. So two
programs that are the same with their spans blanked out go the same way, from states of which the
same is to be seen apart from spans: the names of the frames, what is bound in the current one, and
the step count (`State.outline`). They come to ends of which the same is to be seen.

A span gets into a value by way of a function, which carries its body along, so the values on the
two sides differ in spans, too. Values are read as trees whose functions are blanked out, and two
functions that read the same have bodies that go the same way. The nodes of the two programs are of
the same kinds, and their parts go together one by one (`Expr.Corresponds.ofBlank`), which is all
that a simulation asks of them.
-/
import Treewalk.Proofs.Blank
import Treewalk.Proofs.Simulation

namespace Treewalk

variable {Result Other : Type}

/-! ### What is to be seen apart from spans -/

/-- What is to be seen of a state apart from spans. -/
structure Outline where
  /-- The names of the frames, the current one first. -/
  names : List String
  /-- What is bound in the current frame. -/
  bindings : String → Option Tree
  steps : Nat

/-- What is to be seen of a state apart from spans. -/
def State.outline (sites : Nat → Nat) (state : State) : Outline where
  names := state.context.frames.map Frame.name
  bindings name := (state.context.get? name).map (Value.blank sites)
  steps := state.steps

namespace Failure

/-- The names of the frames that the backtrace of a failure lists. -/
def frameNames (failure : Failure) : Option (List String) :=
  failure.backtrace.map fun backtrace => backtrace.sites.map Site.name

/-- Whether two failures differ in spans alone. -/
structure Resembles (failure other : Failure) : Prop where
  fault : failure.fault = other.fault
  message : failure.message = other.message
  frames : failure.frameNames = other.frameNames

end Failure

/-- Whether two values differ in spans alone. -/
def Value.Resembles (sites sites' : Nat → Nat) (value value' : Value) : Prop :=
  value.blank sites = value'.blank sites'

/-- Whether two ends differ in spans alone, their results being the same for what is asked of
them. -/
inductive Outcome.Resembles (sites sites' : Nat → Nat) (same : Result → Result → Prop) :
    Outcome Result → Outcome Result → Prop
  | value {result result' : Result} {after after' : State} (results : same result result')
    (left : after.outline sites = after'.outline sites') :
    Resembles sites sites' same (.value result after) (.value result' after')
  | failure {failure failure' : Failure} {after after' : State}
    (reasons : failure.Resembles failure') (left : after.outline sites = after'.outline sites') :
    Resembles sites sites' same (.failure failure after) (.failure failure' after')
  | unfinished : Resembles sites sites' same .unfinished .unfinished

/-- Whether two runs come to ends that differ in spans alone, from states that do. -/
def Run.Resembles (sites sites' : Nat → Nat) (same : Result → Result → Prop)
    (run run' : Run Result) : Prop :=
  ∀ state state' : State, state.outline sites = state'.outline sites' →
    (run state).Resembles sites sites' same (run' state')

section

variable {sites sites' : Nat → Nat}

/-! ### Nodes, values and contexts -/

/-- Two nodes that have one blank in common are of one kind, and so are their parts, one by one. -/
theorem Expr.Corresponds.ofBlank {parts : Expr → Expr → Prop}
    {functions : Function → Function → Prop} {reads binds : String → Prop}
    {places : Span → Span → Prop}
    (part : ∀ child child', child.blank sites = child'.blank sites' → parts child child')
    (value : ∀ function function', function.blank sites = function'.blank sites' →
      functions function function')
    (read : ∀ name, reads name) (bound : ∀ name, binds name)
    (place : ∀ span span', places span span') {node node' : Expr}
    (alike : node.blank sites = node'.blank sites') :
    Corresponds parts functions reads binds places node node' := by
  have all : ∀ {items items'}, blankAll sites items = blankAll sites' items' →
      List.Forall₂ parts items items' := by
    intro items items' same
    rw [blankAll_eq_map, blankAll_eq_map, map_eq_map_iff_forall₂] at same
    exact same.imp part
  have optional : ∀ {node node'}, blankOptional sites node = blankOptional sites' node' →
      Option.Rel parts node node' := by
    intro node node' same
    rw [blankOptional_eq_map, blankOptional_eq_map, map_eq_map_iff_rel] at same
    cases same with
    | none => exact .none
    | some same => exact .some (part _ _ same)
  cases node with
  | number span value =>
    cases node' with
    | number span' value' =>
      obtain ⟨-, rfl⟩ := number.inj alike
      exact .number value
    | _ => cases alike
  | string span value =>
    cases node' with
    | string span' value' =>
      obtain ⟨-, rfl⟩ := string.inj alike
      exact .string value
    | _ => cases alike
  | array span items =>
    cases node' with
    | array span' items' => exact .array (all (array.inj alike).2)
    | _ => cases alike
  | lookup span name =>
    cases node' with
    | lookup span' name' =>
      obtain ⟨-, rfl⟩ := lookup.inj alike
      exact .lookup (read name)
    | _ => cases alike
  | assign span name value =>
    cases node' with
    | assign span' name' value' =>
      obtain ⟨-, rfl, same⟩ := assign.inj alike
      exact .assign (bound name) (part _ _ same)
    | _ => cases alike
  | binary span op left right =>
    cases node' with
    | binary span' op' left' right' =>
      obtain ⟨-, rfl, left, right⟩ := binary.inj alike
      exact .binary op (part _ _ left) (part _ _ right)
    | _ => cases alike
  | unary span op operand =>
    cases node' with
    | unary span' op' operand' =>
      obtain ⟨-, rfl, operand⟩ := unary.inj alike
      exact .unary op (part _ _ operand)
    | _ => cases alike
  | conditional span cases otherwise =>
    cases node' with
    | conditional span' cases' otherwise' =>
      obtain ⟨-, same, others⟩ := conditional.inj alike
      rw [blankCases_eq_map, blankCases_eq_map, map_eq_map_iff_forall₂] at same
      refine .conditional (same.imp fun case case' same => ?_) (optional others)
      obtain ⟨condition, body⟩ := Prod.mk.inj same
      exact ⟨part _ _ condition, part _ _ body⟩
    | _ => cases alike
  | forLoop span name start stop step body =>
    cases node' with
    | forLoop span' name' start' stop' step' body' =>
      obtain ⟨-, rfl, start, stop, step, body⟩ := forLoop.inj alike
      exact .forLoop (bound name) (part _ _ start) (part _ _ stop) (optional step) (part _ _ body)
    | _ => cases alike
  | whileLoop span condition body =>
    cases node' with
    | whileLoop span' condition' body' =>
      obtain ⟨-, condition, body⟩ := whileLoop.inj alike
      exact .whileLoop (part _ _ condition) (part _ _ body)
    | _ => cases alike
  | define span name params site body =>
    cases node' with
    | define span' name' params' site' body' =>
      obtain ⟨-, rfl, rfl, places, bodies⟩ := define.inj alike
      refine .define (fun name _ => bound name) (value _ _ ?_)
      rw [Function.blank, Function.blank, places, bodies]
    | _ => cases alike
  | call span callee args =>
    cases node' with
    | call span' callee' args' =>
      obtain ⟨-, callee, args⟩ := call.inj alike
      exact .call (place _ _) (part _ _ callee) (all args)
    | _ => cases alike

namespace Value

theorem Resembles.isTruthy_eq {value value' : Value} (same : value.Resembles sites sites' value') :
    value.isTruthy = value'.isTruthy := by
  rw [← isTruthy_blank sites, ← isTruthy_blank sites', same]

theorem Resembles.typeName_eq {value value' : Value} (same : value.Resembles sites sites' value') :
    value.typeName = value'.typeName := by
  rw [← typeName_blank sites, ← typeName_blank sites', same]

end Value

namespace Context

/-- A stamp lists the names of the frames, whatever the spans. -/
theorem frameNames_stamp (context : Context) (span : Span) (failure : Failure) :
    (context.stamp span failure).frameNames =
      some (failure.frameNames.getD (context.frames.map Frame.name)) := by
  cases known : failure.backtrace with
  | none => simp [stamp, known, Failure.frameNames, backtrace, names_sitesFrom]
  | some backtrace => simp [stamp, known, Failure.frameNames]

end Context

namespace State

theorem outline_set (state : State) (name : String) (value : Value) :
    outline sites { state with context := state.context.set name value } =
      ⟨(state.outline sites).names,
        fun other => if other = name then some (value.blank sites)
          else (state.outline sites).bindings other, state.steps⟩ := by
  refine congrArg (Outline.mk (state.outline sites).names · state.steps) (funext fun other => ?_)
  by_cases same : other = name
  · subst same
    rw [if_pos rfl, Context.get?_set_self]
    rfl
  · rw [if_neg same, Context.get?_set_of_ne _ same]
    rfl

variable {state state' : State} (alike : state.outline sites = state'.outline sites')

include alike

theorem depth_of_outline : state.context.depth = state'.context.depth := by
  have lengths := congrArg (fun outline : Outline => outline.names.length) alike
  simpa [outline, Context.frames, Context.depth] using lengths

/-- The same is to be seen one step later. -/
theorem outline_counted : state.counted.outline sites = state'.counted.outline sites' :=
  congrArg (fun outline : Outline =>
    (⟨outline.names, outline.bindings, min (outline.steps + 1) maxSteps⟩ : Outline)) alike

end State

theorem Failure.Resembles.stamp {failure failure' : Failure} (reasons : failure.Resembles failure')
    {last last' : State} (alike : last.outline sites = last'.outline sites') (span span' : Span) :
    (last.context.stamp span failure).Resembles (last'.context.stamp span' failure') := by
  have names : last.context.frames.map Frame.name = last'.context.frames.map Frame.name :=
    congrArg Outline.names alike
  refine ⟨?_, ?_, ?_⟩
  · rw [Context.fault_stamp, Context.fault_stamp, reasons.fault]
  · rw [Context.message_stamp, Context.message_stamp, reasons.message]
  · rw [Context.frameNames_stamp, Context.frameNames_stamp, reasons.frames, names]

namespace Run.Resembles

variable {same : Result → Result → Prop}

/-! ### Parts of an evaluation -/

theorem pure {result result' : Result} (results : same result result') :
    Resembles sites sites' same (Pure.pure result) (Pure.pure result') :=
  fun _ _ alike => .value results alike

theorem unfinished : Resembles sites sites' same Run.unfinished Run.unfinished :=
  fun _ _ _ => .unfinished

theorem raise (fault : Fault) :
    Resembles sites sites' same (Run.raise fault) (Run.raise fault) :=
  fun _ _ alike => .failure ⟨rfl, rfl, rfl⟩ alike

theorem ofExcept {Image : Type} {read read' : Result → Image}
    {computed computed' : Except Fault Result}
    (alike : computed.map read = computed'.map read') :
    Resembles sites sites' (fun result result' => read result = read' result')
      (Run.ofExcept computed) (Run.ofExcept computed') := by
  cases computed with
  | error fault =>
    cases computed' with
    | error fault' =>
      obtain rfl := Except.error.inj alike
      exact raise fault
    | ok result' => cases alike
  | ok result =>
    cases computed' with
    | error fault' => cases alike
    | ok result' => exact pure (Except.ok.inj alike)

/-- What is written into the journal is not to be seen. -/
theorem record (event event' : Event) :
    Resembles sites sites' (fun _ _ => True) (Run.record event) (Run.record event') :=
  fun _ _ alike => .value trivial alike

theorem enter (node node' : Expr) :
    Resembles sites sites' (fun _ _ => True) (Run.enter node) (Run.enter node') :=
  fun _ _ alike => .value trivial alike

theorem newObject : Resembles sites sites' (fun _ _ => True) Run.newObject Run.newObject :=
  fun _ _ alike => .value trivial alike

theorem lookup (name : String) :
    Resembles sites sites' (Value.Resembles sites sites') (Run.lookup name)
      (Run.lookup name) := by
  intro state state' alike
  have bound : (state.context.get? name).map (Value.blank sites) =
      (state'.context.get? name).map (Value.blank sites') :=
    congrArg (fun outline : Outline => outline.bindings name) alike
  rw [lookup_apply, lookup_apply]
  cases known : state.context.get? name with
  | none =>
    cases known' : state'.context.get? name with
    | none => exact raise _ state state' alike
    | some value' => simp [known, known'] at bound
  | some value =>
    cases known' : state'.context.get? name with
    | none => simp [known, known'] at bound
    | some value' =>
      rw [known, known'] at bound
      exact .value (Option.some.inj bound) alike

theorem assign (name : String) {value value' : Value}
    (results : value.Resembles sites sites' value') :
    Resembles sites sites' (fun _ _ => True) (Run.assign name value)
      (Run.assign name value') := by
  intro state state' alike
  refine .value trivial ?_
  have steps : state.steps = state'.steps := congrArg Outline.steps alike
  show State.outline sites { state with context := state.context.set name value } =
    State.outline sites' { state' with context := state'.context.set name value' }
  rw [State.outline_set, State.outline_set, alike, results, steps]

theorem checkpoint (interpreter : Interpreter) :
    Resembles sites sites' (fun _ _ => True) interpreter.checkpoint interpreter.checkpoint := by
  intro state state' alike
  have counted := State.outline_counted alike
  have steps : state.counted.steps = state'.counted.steps := congrArg Outline.steps counted
  rw [Interpreter.checkpoint_apply, Interpreter.checkpoint_apply, steps]
  split
  · exact raise _ _ _ alike
  · split
    · exact .value trivial counted
    · split
      · exact raise _ _ _ counted
      · exact .value trivial counted

/-! ### Ways of putting runs together -/

theorem bind {first first' : Run Other} {next next' : Other → Run Result}
    {before : Other → Other → Prop} (start : Resembles sites sites' before first first')
    (rest : ∀ result result', before result result' →
      Resembles sites sites' same (next result) (next' result')) :
    Resembles sites sites' same (first >>= next) (first' >>= next') := by
  intro state state' alike
  have ends := start state state' alike
  rw [bind_apply, bind_apply]
  generalize first state = ending, first' state' = ending' at ends
  cases ends with
  | value results left => exact rest _ _ results _ _ left
  | failure reasons left => exact .failure reasons left
  | unfinished => exact .unfinished

theorem newArray {items items' : List Value}
    (results : List.Forall₂ (Value.Resembles sites sites') items items') :
    Resembles sites sites' (Value.Resembles sites sites') (Run.newArray items)
      (Run.newArray items') := by
  refine bind newObject fun object object' _ => pure ?_
  unfold Value.Resembles
  rw [Value.blank_ofItems, Value.blank_ofItems, map_eq_map_iff_forall₂.mpr results]

theorem descend (interpreter : Interpreter) {inner inner' : Run Result}
    (inside : Resembles sites sites' same inner inner') :
    Resembles sites sites' same (interpreter.descend inner) (interpreter.descend inner') := by
  intro state state' alike
  rw [Interpreter.descend_apply, Interpreter.descend_apply, State.depth_of_outline alike]
  split
  · exact raise _ _ _ alike
  · exact inside _ _ alike

/-- The two sides may be wrapped differently, if the differences are not to be seen. -/
theorem wrapped {inner inner' : Run Result} (inside : Resembles sites sites' same inner inner')
    {start start' : State → State} {mark mark' : State → Failure → Failure}
    {finish finish' : State → State → State}
    (started : ∀ state state', state.outline sites = state'.outline sites' →
      (start state).outline sites = (start' state').outline sites')
    (marked : ∀ last last' failure failure', last.outline sites = last'.outline sites' →
      Failure.Resembles failure failure' →
        (mark last failure).Resembles (mark' last' failure'))
    (finished : ∀ state state' last last', state.outline sites = state'.outline sites' →
      last.outline sites = last'.outline sites' →
        (finish state last).outline sites = (finish' state' last').outline sites') :
    Resembles sites sites' same (Run.wrapped start mark finish inner)
      (Run.wrapped start' mark' finish' inner') := by
  intro state state' alike
  have ends := inside (start state) (start' state') (started state state' alike)
  rw [wrapped_apply, wrapped_apply]
  generalize inner (start state) = ending, inner' (start' state') = ending' at ends
  cases ends with
  | value results left => exact .value results (finished _ _ _ _ alike left)
  | failure reasons left =>
    exact .failure (marked _ _ _ _ left reasons) (finished _ _ _ _ alike left)
  | unfinished => exact .unfinished

theorem stamped (span span' : Span) {inner inner' : Run Result}
    (inside : Resembles sites sites' same inner inner') :
    Resembles sites sites' same (Run.stamped span inner) (Run.stamped span' inner') := by
  rw [stamped_eq, stamped_eq]
  exact inside.wrapped (fun _ _ alike => alike)
    (fun _ _ _ _ left reasons => reasons.stamp left span span') fun _ _ _ _ _ left => left

theorem between (before after : Event) {inner inner' : Run Result}
    (inside : Resembles sites sites' same inner inner') :
    Resembles sites sites' same (Run.between before after inner)
      (Run.between before after inner') := by
  rw [between_eq, between_eq]
  exact inside.wrapped (fun _ _ alike => alike) (fun _ _ _ _ _ reasons => reasons)
    fun _ _ _ _ _ left => left

theorem inFrame (name : String) (entry entry' : Span) {inner inner' : Run Result}
    (inside : Resembles sites sites' same inner inner') :
    Resembles sites sites' same (Run.inFrame name entry inner)
      (Run.inFrame name entry' inner') := by
  rw [inFrame_eq, inFrame_eq]
  refine inside.wrapped (fun _ _ alike => ?_) (fun _ _ _ _ _ reasons => reasons)
    fun state state' last last' alike left => ?_
  · exact congrArg (fun outline : Outline =>
      (⟨name :: outline.names, fun _ => none, outline.steps⟩ : Outline)) alike
  · have steps : last.steps = last'.steps := congrArg Outline.steps left
    show Outline.mk (state.outline sites).names (state.outline sites).bindings last.steps =
      Outline.mk (state'.outline sites').names (state'.outline sites').bindings last'.steps
    rw [alike, steps]

/-! ### Nodes and calls -/

/-- The simulation of runs that differ in spans alone. -/
def simulation (sites sites' : Nat → Nat) : Simulation where
  World := Unit
  Later _ _ := True
  related _ meets := Resembles sites sites' (meets ())
  same _ := Value.Resembles sites sites'
  places _ _ := True
  done := pure
  next start rest := start.bind (rest () trivial)
  raise fault _ := raise fault
  keep same _ := same
  number _ := rfl
  string _ := rfl
  void := rfl
  isTruthy_eq := Value.Resembles.isTruthy_eq
  typeName_eq := Value.Resembles.typeName_eq
  newArray := newArray
  binary op _ _ _ _ left right := by
    refine bind newObject fun object object' _ => ofExcept ?_
    rw [BinaryOperator.apply_blank, BinaryOperator.apply_blank, left, right]
  unary op _ _ operand := by
    refine ofExcept ?_
    rw [UnaryOperator.apply_blank, UnaryOperator.apply_blank, operand]
  range_eq start stop step := by
    rw [← Range.ofBounds_blank sites, ← Range.ofBounds_blank sites', start, stop,
      map_eq_map_iff_rel.mpr step]

variable {evaluate : Expr → Run Value}
  (nodes : ∀ node node', node.blank sites = node'.blank sites' →
    Resembles sites sites' (Value.Resembles sites sites') (evaluate node) (evaluate node'))

include nodes

/-- Functions that read the same are called alike, since their bodies read the same. -/
theorem callFunction (interpreter : Interpreter) {function function' : Function}
    (functions : function.blank sites = function'.blank sites') {args args' : List Value}
    (results : List.Forall₂ (Value.Resembles sites sites') args args') (span span' : Span) :
    Resembles sites sites' (Value.Resembles sites sites')
      (interpreter.callFunction evaluate function args span)
      (interpreter.callFunction evaluate function' args' span') := by
  obtain ⟨name, params, -, body⟩ := Function.mk.inj functions
  have display : function.displayName = function'.displayName :=
    congrArg (Option.getD · "<anonymous>") name
  have arity : function.arity = function'.arity := congrArg List.length params
  rw [Interpreter.callFunction_eq, Interpreter.callFunction_eq, ← display, ← results.length_eq]
  refine between _ _ (bind (checkpoint interpreter) fun _ _ _ => descend interpreter ?_)
  unfold Interpreter.enterBody
  rw [← display, ← params, ← arity, ← results.length_eq]
  split
  · exact raise _
  · have bound := (simulation sites sites').assignAll () (fun name _ _ _ => assign name)
      function.params results
    exact inFrame _ _ _ (bind bound fun _ _ _ => nodes _ _ body)

theorem evaluateNode (interpreter : Interpreter) (rounds : Nat) {node node' : Expr}
    (alike : node.blank sites = node'.blank sites') :
    Resembles sites sites' (Value.Resembles sites sites')
      (Expr.evaluateNode interpreter rounds evaluate node)
      (Expr.evaluateNode interpreter rounds evaluate node') := by
  have kinds : (simulation sites sites').Corresponds evaluate evaluate node node' :=
    .ofBlank (fun child child' same _ => nodes child child' same)
      (fun _ _ same _ => congrArg Tree.function same) (fun name _ => lookup name)
      (fun name _ _ _ results => assign name results) (fun _ _ => trivial) alike
  have loops : (simulation sites sites').Loops interpreter interpreter rounds rounds evaluate
      evaluate :=
    Simulation.loops (fun _ => checkpoint interpreter) (fun _ event => record event event)
      (fun _ _ => unfinished) rounds
  have calls : (simulation sites sites').Calls interpreter interpreter evaluate evaluate :=
    fun _ called results => callFunction nodes interpreter (Tree.function.inj called) results _ _
  exact Simulation.evaluateNode kinds loops (fun _ => calls) ()

end Run.Resembles

end

/-! ### Evaluation -/

/-- Evaluations of nodes that have one blank in common go the same way. The induction is on the
fuel, for all such nodes at once: a body may be any. -/
theorem Expr.eval_resembles {sites sites' : Nat → Nat} (interpreter : Interpreter) (fuel : Nat)
    {node node' : Expr} (alike : node.blank sites = node'.blank sites') :
    Run.Resembles sites sites' (Value.Resembles sites sites') (eval interpreter fuel node)
      (eval interpreter fuel node') := by
  induction fuel generalizing node node' with
  | zero => exact .unfinished
  | succ fuel inductionHypothesis =>
    rw [eval_succ, eval_succ, visit_eq, visit_eq]
    exact .stamped _ _ (.bind (.enter node node') fun _ _ _ =>
      .evaluateNode (fun _ _ alike => inductionHypothesis alike) interpreter fuel alike)

/-- Two programs that are the same with their spans blanked out, started in frames of the same names
that bind the same names to values that are the same with their spans blanked out, come to the same
apart from spans: to values that are the same with their spans blanked out, or to failures with the
same fault and the same message, whose backtraces list frames of the same names; after the same
number of steps, and with bindings that are the same with their spans blanked out. Of the frames
below the starting one nothing but the names has to be the same. The sites of definitions may be
left as they are on either side, or renamed in any way. -/
theorem spans_never_matter (sites sites' : Nat → Nat) (interpreter : Interpreter) (fuel : Nat)
    (program program' : Expr) (state state' : State)
    (programs : program.blank sites = program'.blank sites')
    (names : state.context.frames.map Frame.name = state'.context.frames.map Frame.name)
    (bound : ∀ name, (state.context.get? name).map (Value.blank sites) =
      (state'.context.get? name).map (Value.blank sites')) :
    (interpreter.evaluate fuel program state).Resembles sites sites'
      (Value.Resembles sites sites') (interpreter.evaluate fuel program' state') := by
  have alike : State.outline sites { state with steps := 0 } =
      State.outline sites' { state' with steps := 0 } := by
    show Outline.mk _ (fun name => (state.context.get? name).map (Value.blank sites)) 0 = _
    rw [names, funext bound]
    rfl
  exact Expr.eval_resembles interpreter fuel programs _ _ alike

/-- A function that looks up an unbound name is called in two frames that were entered at two
different places. The two functions were defined at different sites, and all spans are different:
the calls fail alike, in the same frames. -/
theorem call_moved_elsewhere_fails_alike :
    let forget : Nat → Nat := fun _ => 0
    let program : Expr := .assign ⟨0, 8⟩ "y" (.call ⟨4, 8⟩ (.lookup ⟨4, 5⟩ "f")
      [.number ⟨6, 7⟩ (.int 1)])
    let program' : Expr := .assign ⟨70, 79⟩ "y" (.call ⟨74, 79⟩ (.lookup ⟨74, 75⟩ "f")
      [.number ⟨77, 78⟩ (.int 1)])
    let state : State := .initial (((Context.root "main").child "g" ⟨20, 25⟩).set "f"
      (.function ⟨some "f", ["a"], 3, .lookup ⟨40, 41⟩ "b"⟩))
    let state' : State := .initial (((Context.root "main").child "g" ⟨90, 96⟩).set "f"
      (.function ⟨some "f", ["a"], 5, .lookup ⟨60, 61⟩ "b"⟩))
    let interpreter : Interpreter := .ofLimits (.bounded 3 1)
    program.blank forget = program'.blank forget ∧
      ∃ failure failure' after after',
        interpreter.evaluate 4 program state = .failure failure after ∧
        interpreter.evaluate 4 program' state' = .failure failure' after' ∧
        failure.fault = failure'.fault ∧ failure'.frameNames = some ["f", "g", "main"] ∧
        after.steps = after'.steps := by
  intro forget program program' state state' interpreter
  have bound : ∀ name, (state.context.get? name).map (Value.blank forget) =
      (state'.context.get? name).map (Value.blank forget) := by
    intro name
    by_cases here : name = "f"
    · subst here
      rfl
    · show ((Context.set _ "f" _).get? name).map _ = ((Context.set _ "f" _).get? name).map _
      rw [Context.get?_set_of_ne _ here, Context.get?_set_of_ne _ here]
      rfl
  have same := spans_never_matter forget forget interpreter 4 program program' state state' rfl
    rfl bound
  have failed : (match interpreter.evaluate 4 program state with
      | .failure failure _ => failure.frameNames
      | _ => none) = some ["f", "g", "main"] := by decide +kernel
  generalize interpreter.evaluate 4 program state = ending at same failed
  generalize interpreter.evaluate 4 program' state' = ending' at same
  cases same with
  | @failure failure failure' after after' reasons left =>
    exact ⟨rfl, failure, failure', after, after', rfl, rfl, reasons.fault,
      reasons.frames.symm.trans failed, congrArg Outline.steps left⟩
  | value | unfinished => cases failed

end Treewalk

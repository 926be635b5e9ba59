/-
This file proves that a program depends on the names that it mentions, and changes what it assigns
to, and nothing else.

The names of a program are those that its nodes look up or bind, not counting function bodies: a
body runs in a frame that its call has made, where other names stand for other things. From two
contexts that agree on these names and look the same in a backtrace, an evaluation goes the same
way, and the contexts agree on them again afterwards. The names that the program does not bind are
bound afterwards to what they were bound to before, and no name is ever unbound. Both are proved of
two runs at once (`Run.Agrees`), since what one run does to its frame is the case where the two runs
are the same.

A body may mention any names at all, so for the frame of a call the two runs have to agree on
everything. They do: the parameters are all that is bound there.
-/
import Treewalk.Proofs.Simulation
import Treewalk.Proofs.Tree

namespace Treewalk

variable {Result Other : Type}

/-! ### Names of a program -/

namespace Expr

/-- The parts of a node that are evaluated in the same frame as the node, itself included. -/
inductive Part : Expr → Expr → Prop
  | self (node : Expr) : Part node node
  | inner {node child part : Expr} (member : child ∈ node.children) (inside : Part child part) :
      Part node part

/-- Whether a name is bound somewhere in a node. -/
def Targets (node : Expr) (name : String) : Prop :=
  ∃ part, node.Part part ∧ part.target? = some name

/-- Whether a name is looked up or bound somewhere in a node. -/
def Names (node : Expr) (name : String) : Prop :=
  ∃ part, node.Part part ∧ part.name? = some name

/-- The names of a node are its own one and those of its children. -/
theorem names_iff {node : Expr} {name : String} :
    node.Names name ↔ node.name? = some name ∨ ∃ child ∈ node.children, child.Names name := by
  constructor
  · rintro ⟨part, inside, own⟩
    cases inside with
    | self => exact .inl own
    | inner member inside => exact .inr ⟨_, member, part, inside, own⟩
  · rintro (own | ⟨child, member, part, inside, own⟩)
    · exact ⟨node, .self node, own⟩
    · exact ⟨part, .inner member inside, own⟩

theorem Targets.names {node : Expr} {name : String} (target : node.Targets name) :
    node.Names name := by
  obtain ⟨part, inside, own⟩ := target
  refine ⟨part, inside, ?_⟩
  cases part with
  | lookup => cases own
  | _ => exact own

/-- Whether a node mentions and binds no names but some. -/
structure Within (names targets : String → Prop) (node : Expr) : Prop where
  names : ∀ name, node.Names name → names name
  targets : ∀ name, node.Targets name → targets name

namespace Within

variable {names targets : String → Prop} {node : Expr}

theorem own (node : Expr) : node.Within node.Names node.Targets := ⟨fun _ => id, fun _ => id⟩

theorem everything (node : Expr) : node.Within (fun _ => True) fun _ => True :=
  ⟨fun _ _ => trivial, fun _ _ => trivial⟩

theorem child (within : node.Within names targets) {child : Expr}
    (member : child ∈ node.children) : child.Within names targets :=
  ⟨fun name ⟨part, inside, own⟩ => within.names name ⟨part, .inner member inside, own⟩,
    fun name ⟨part, inside, own⟩ => within.targets name ⟨part, .inner member inside, own⟩⟩

theorem name (within : node.Within names targets) {name : String} (own : node.name? = some name) :
    names name := within.names name ⟨node, .self node, own⟩

theorem target (within : node.Within names targets) {name : String}
    (own : node.target? = some name) : targets name := within.targets name ⟨node, .self node, own⟩

end Within

end Expr

/-! ### Contexts that agree -/

/-- What a backtrace shows of a frame that is not the current one. -/
def Frame.mark (frame : Frame) : String × Option Span := (frame.name, frame.entry)

/-- Whether two contexts are the same in a backtrace and bind some names to the same trees. -/
structure Context.AgreesOn (names : String → Prop) (context other : Context) : Prop where
  frames : context.frames.map Frame.mark = other.frames.map Frame.mark
  bound : ∀ name, names name →
    (context.get? name).map Value.tree = (other.get? name).map Value.tree

/-- Whether a context binds what another one bound, apart from the names of some targets, which may
be bound to something else. -/
structure Context.KeptUpTo (targets : String → Prop) (before after : Context) : Prop where
  unchanged : ∀ name, ¬ targets name → after.get? name = before.get? name
  present : ∀ name, (before.get? name).isSome → (after.get? name).isSome

namespace Context

variable {names targets : String → Prop}

theorem sitesFrom_congr {frames frames' : List Frame}
    (same : frames.map Frame.mark = frames'.map Frame.mark) (span : Option Span) :
    sitesFrom span frames = sitesFrom span frames' := by
  induction frames generalizing frames' span with
  | nil =>
    obtain rfl := List.map_eq_nil_iff.mp same.symm
    rfl
  | cons frame rest inductionHypothesis =>
    obtain ⟨frame', rest', rfl, mark, marks⟩ := List.map_eq_cons_iff.mp same.symm
    obtain ⟨name, entry⟩ := Prod.mk.inj mark
    rw [sitesFrom, sitesFrom, name, entry, inductionHypothesis marks.symm]

namespace AgreesOn

variable {context other : Context}

theorem depth_eq (agree : context.AgreesOn names other) : context.depth = other.depth := by
  have lengths := congrArg List.length agree.frames
  rw [List.length_map, List.length_map] at lengths
  exact Nat.succ.inj lengths

theorem stamp_eq (agree : context.AgreesOn names other) (span : Span) (failure : Failure) :
    context.stamp span failure = other.stamp span failure := by
  unfold stamp backtrace
  simp only [sitesFrom_congr agree.frames]

theorem set (agree : context.AgreesOn names other) (name : String) {value value' : Value}
    (same : value.tree = value'.tree) :
    (context.set name value).AgreesOn names (other.set name value') := by
  refine ⟨agree.frames, fun asked mentioned => ?_⟩
  by_cases here : asked = name
  · subst here
    rw [get?_set_self, get?_set_self, Option.map_some, Option.map_some, same]
  · rw [get?_set_of_ne _ here, get?_set_of_ne _ here]
    exact agree.bound asked mentioned

/-- Frames that have just been opened agree on everything. -/
theorem child (agree : context.AgreesOn names other) (name : String) (entry : Span) :
    (context.child name entry).AgreesOn (fun _ => True) (other.child name entry) :=
  ⟨congrArg (_ :: ·) agree.frames, fun _ _ => rfl⟩

end AgreesOn

namespace KeptUpTo

theorem refl (context : Context) : context.KeptUpTo targets context :=
  ⟨fun _ _ => rfl, fun _ => id⟩

theorem trans {first second third : Context} (start : first.KeptUpTo targets second)
    (rest : second.KeptUpTo targets third) : first.KeptUpTo targets third :=
  ⟨fun name other => (rest.unchanged name other).trans (start.unchanged name other),
    fun name bound => rest.present name (start.present name bound)⟩

theorem set (context : Context) {name : String} (target : targets name) (value : Value) :
    context.KeptUpTo targets (context.set name value) := by
  refine ⟨fun asked other => get?_set_of_ne context (fun same => ?_) value,
    fun asked bound => ?_⟩
  · subst same
    exact other target
  by_cases here : asked = name
  · subst here
    rw [get?_set_self]
    rfl
  · rwa [get?_set_of_ne _ here]

end KeptUpTo

end Context

/-- Whether two states agree on names and on the number of steps. -/
structure State.AgreesOn (names : String → Prop) (state other : State) : Prop where
  context : state.context.AgreesOn names other.context
  steps : state.steps = other.steps

/-- Whether two runs that started in two contexts have left states that agree, and each of them has
kept its context up to some targets. -/
structure State.Leave (names targets : String → Prop) (before before' : Context)
    (after after' : State) : Prop where
  agree : after.AgreesOn names after'
  kept : before.KeptUpTo targets after.context
  kept' : before'.KeptUpTo targets after'.context

/-- Whether two runs that started in two contexts came to the same end, their results being the same
for what is asked of them. -/
inductive Outcome.Agrees (names targets : String → Prop) (same : Result → Result → Prop)
    (before before' : Context) : Outcome Result → Outcome Result → Prop
  | value {result result' : Result} {after after' : State} (results : same result result')
    (leave : State.Leave names targets before before' after after') :
    Agrees names targets same before before' (.value result after) (.value result' after')
  | failure (failure : Failure) {after after' : State}
    (leave : State.Leave names targets before before' after after') :
    Agrees names targets same before before' (.failure failure after) (.failure failure after')
  | unfinished : Agrees names targets same before before' .unfinished .unfinished

/-- Whether two runs come to the same end from states that agree, and neither touches more than it
may. -/
def Run.Agrees (names targets : String → Prop) (same : Result → Result → Prop)
    (run run' : Run Result) : Prop :=
  ∀ state state' : State, state.AgreesOn names state' →
    (run state).Agrees names targets same state.context state'.context (run' state')

/-- Whether two values are the same as trees. -/
def Value.SameTree (value value' : Value) : Prop := value.tree = value'.tree

theorem Value.SameTree.isTruthy_eq {value value' : Value} (same : value.SameTree value') :
    value.isTruthy = value'.isTruthy := by
  rw [← isTruthy_tree, ← isTruthy_tree, same]

theorem Value.SameTree.typeName_eq {value value' : Value} (same : value.SameTree value') :
    value.typeName = value'.typeName := by
  rw [← typeName_tree, ← typeName_tree, same]

namespace Run.Agrees

variable {names targets : String → Prop} {same : Result → Result → Prop}

/-- A run that leaves the context alone. -/
theorem still {state state' after after' : State} (agree : state.AgreesOn names state')
    (left : after.context = state.context) (left' : after'.context = state'.context)
    (steps : after.steps = after'.steps) :
    State.Leave names targets state.context state'.context after after' :=
  ⟨⟨left ▸ left' ▸ agree.context, steps⟩, left ▸ .refl _, left' ▸ .refl _⟩

theorem pure {result result' : Result} (results : same result result') :
    Agrees names targets same (Pure.pure result) (Pure.pure result') :=
  fun _ _ agree => .value results (still agree rfl rfl agree.steps)

theorem unfinished : Agrees names targets same Run.unfinished Run.unfinished :=
  fun _ _ _ => .unfinished

theorem raise (fault : Fault) : Agrees names targets same (Run.raise fault) (Run.raise fault) :=
  fun _ _ agree => .failure _ (still agree rfl rfl agree.steps)

theorem ofExcept {Image : Type} {read : Result → Image} {computed computed' : Except Fault Result}
    (alike : computed.map read = computed'.map read) :
    Agrees names targets (fun result result' => read result = read result')
      (Run.ofExcept computed) (Run.ofExcept computed') := by
  cases computed with
  | error fault =>
    cases computed' with
    | error fault' =>
      obtain rfl := Except.error.inj alike
      exact raise fault
    | ok result' => cases alike
  | ok result =>
    cases computed' with
    | error fault' => cases alike
    | ok result' => exact pure (Except.ok.inj alike)

theorem record (event event' : Event) :
    Agrees names targets (fun _ _ => True) (Run.record event) (Run.record event') :=
  fun _ _ agree => .value trivial (still agree rfl rfl agree.steps)

theorem enter (node : Expr) :
    Agrees names targets (fun _ _ => True) (Run.enter node) (Run.enter node) :=
  fun _ _ agree => .value trivial (still agree rfl rfl agree.steps)

theorem newObject : Agrees names targets (fun _ _ => True) Run.newObject Run.newObject :=
  fun _ _ agree => .value trivial (still agree rfl rfl agree.steps)

/-- What one pair of runs leaves is where the next pair starts. -/
theorem bind {first first' : Run Other} {next next' : Other → Run Result}
    {before : Other → Other → Prop} (start : Agrees names targets before first first')
    (rest : ∀ result result', before result result' →
      Agrees names targets same (next result) (next' result')) :
    Agrees names targets same (first >>= next) (first' >>= next') := by
  intro state state' agree
  rw [bind_apply, bind_apply]
  have ends := start state state' agree
  generalize first state = ending at ends
  generalize first' state' = ending' at ends
  cases ends with
  | @value result result' middle middle' results leave =>
    have later := rest result result' results middle middle' leave.agree
    dsimp only
    generalize next result middle = ending at later
    generalize next' result' middle' = ending' at later
    cases later with
    | value results later =>
      exact .value results ⟨later.agree, leave.kept.trans later.kept, leave.kept'.trans later.kept'⟩
    | failure failure later =>
      exact .failure failure
        ⟨later.agree, leave.kept.trans later.kept, leave.kept'.trans later.kept'⟩
    | unfinished => exact .unfinished
  | failure failure leave => exact .failure failure leave
  | unfinished => exact .unfinished

theorem newArray {items items' : List Value} (results : List.Forall₂ Value.SameTree items items') :
    Agrees names targets Value.SameTree (Run.newArray items) (Run.newArray items') := by
  refine bind newObject fun object object' _ => pure ?_
  show (Value.ofItems object items).tree = (Value.ofItems object' items').tree
  rw [Value.tree_ofItems, Value.tree_ofItems, map_eq_map_iff_forall₂.mpr results]

/-! ### Names and limits -/

theorem lookup {name : String} (mentioned : names name) :
    Agrees names targets Value.SameTree (Run.lookup name) (Run.lookup name) := by
  intro state state' agree
  have bound := agree.context.bound name mentioned
  rw [lookup_apply, lookup_apply]
  cases known : state.context.get? name with
  | none =>
    cases known' : state'.context.get? name with
    | none => exact raise _ state state' agree
    | some value' => simp [known, known'] at bound
  | some value =>
    cases known' : state'.context.get? name with
    | none => simp [known, known'] at bound
    | some value' =>
      rw [known, known'] at bound
      have results : value.SameTree value' := Option.some.inj bound
      exact pure results state state' agree

theorem assign {name : String} (target : targets name) {value value' : Value}
    (results : Value.SameTree value value') :
    Agrees names targets (fun _ _ => True) (Run.assign name value) (Run.assign name value') :=
  fun _ _ agree => .value trivial ⟨⟨agree.context.set name results, agree.steps⟩,
    .set _ target value, .set _ target value'⟩

theorem checkpoint (interpreter : Interpreter) :
    Agrees names targets (fun _ _ => True) interpreter.checkpoint interpreter.checkpoint := by
  intro state state' agree
  have counted : state.counted.steps = state'.counted.steps :=
    congrArg (fun steps => min (steps + 1) State.maxSteps) agree.steps
  rw [Interpreter.checkpoint_apply, Interpreter.checkpoint_apply]
  split
  · exact .failure _ (still agree rfl rfl agree.steps)
  · cases interpreter.limits.budget with
    | none => exact .value trivial (still agree rfl rfl counted)
    | some budget =>
      dsimp only
      rw [counted]
      split
      · exact .failure _ (still agree rfl rfl counted)
      · exact .value trivial (still agree rfl rfl counted)

theorem descend (interpreter : Interpreter) {inner inner' : Run Result}
    (agrees : Agrees names targets same inner inner') :
    Agrees names targets same (interpreter.descend inner) (interpreter.descend inner') := by
  intro state state' agree
  rw [Interpreter.descend_apply, Interpreter.descend_apply, agree.context.depth_eq]
  split
  · exact raise _ state state' agree
  · exact agrees state state' agree

/-! ### Around runs -/

theorem stamped (span : Span) {inner inner' : Run Result}
    (agrees : Agrees names targets same inner inner') :
    Agrees names targets same (Run.stamped span inner) (Run.stamped span inner') := by
  intro state state' agree
  have ends := agrees state state' agree
  rw [stamped_eq, stamped_eq, wrapped_apply, wrapped_apply, id, id]
  generalize inner state = ending at ends
  generalize inner' state' = ending' at ends
  cases ends with
  | value results leave => exact .value results leave
  | failure failure leave =>
    dsimp only
    rw [leave.agree.context.stamp_eq]
    exact .failure _ leave
  | unfinished => exact .unfinished

theorem between (before after : Event) {inner inner' : Run Result}
    (agrees : Agrees names targets same inner inner') :
    Agrees names targets same (Run.between before after inner)
      (Run.between before after inner') := by
  intro state state' agree
  have ends := agrees (state.record before) (state'.record before) ⟨agree.context, agree.steps⟩
  rw [between_eq, between_eq, wrapped_apply, wrapped_apply]
  generalize inner (state.record before) = ending at ends
  generalize inner' (state'.record before) = ending' at ends
  cases ends with
  | value results leave =>
    exact .value results ⟨⟨leave.agree.context, leave.agree.steps⟩, leave.kept, leave.kept'⟩
  | failure failure leave =>
    exact .failure failure ⟨⟨leave.agree.context, leave.agree.steps⟩, leave.kept, leave.kept'⟩
  | unfinished => exact .unfinished

/-- Whatever is done in a frame of its own, the contexts are afterwards what they were before. -/
theorem inFrame (name : String) (entry : Span) {inner inner' : Run Result}
    (agrees : Agrees (fun _ => True) (fun _ => True) same inner inner') :
    Agrees names targets same (Run.inFrame name entry inner)
      (Run.inFrame name entry inner') := by
  intro state state' agree
  have ends := agrees { state with context := state.context.child name entry }
    { state' with context := state'.context.child name entry }
    ⟨agree.context.child name entry, agree.steps⟩
  rw [inFrame_eq, inFrame_eq, wrapped_apply, wrapped_apply]
  generalize inner { state with context := state.context.child name entry } = ending at ends
  generalize inner' { state' with context := state'.context.child name entry } = ending' at ends
  cases ends with
  | value results leave => exact .value results (still agree rfl rfl leave.agree.steps)
  | failure failure leave => exact .failure failure (still agree rfl rfl leave.agree.steps)
  | unfinished => exact .unfinished

/-! ### Nodes and calls -/

/-- The simulation of runs that touch some names only. Results are the same when they are so as
trees. -/
def simulation (names targets : String → Prop) : Simulation where
  World := Unit
  Later _ _ := True
  related _ meets := Agrees names targets (meets ())
  same _ := Value.SameTree
  places := Eq
  done := pure
  next start rest := start.bind (rest () trivial)
  raise fault _ := raise fault
  keep same _ := same
  number _ := rfl
  string _ := rfl
  void := rfl
  isTruthy_eq := Value.SameTree.isTruthy_eq
  typeName_eq := Value.SameTree.typeName_eq
  newArray := newArray
  binary op _ _ _ _ left right := by
    refine bind newObject fun object object' _ => ofExcept ?_
    rw [← BinaryOperator.ofTrees_tree, ← BinaryOperator.ofTrees_tree, left, right]
  unary op _ _ operand := by
    refine ofExcept ?_
    rw [← UnaryOperator.ofTree_tree, ← UnaryOperator.ofTree_tree, operand]
  range_eq start stop step := by
    rw [← Range.ofTrees_tree, ← Range.ofTrees_tree, start, stop, map_eq_map_iff_rel.mpr step]

/-- In the frame of a call the two runs have to agree on everything, in the frame of the caller on
nothing. -/
theorem callFunction (interpreter : Interpreter) {evaluate : Expr → Run Value}
    (function : Function) (span : Span)
    (body : Agrees (fun _ => True) (fun _ => True) Value.SameTree (evaluate function.body)
      (evaluate function.body)) {args args' : List Value}
    (results : List.Forall₂ Value.SameTree args args') :
    Agrees names targets Value.SameTree
      (interpreter.callFunction evaluate function args span)
      (interpreter.callFunction evaluate function args' span) := by
  rw [Interpreter.callFunction_eq, Interpreter.callFunction_eq, ← results.length_eq]
  refine between _ _ (bind (checkpoint interpreter) fun _ _ _ => descend interpreter ?_)
  unfold Interpreter.enterBody
  rw [← results.length_eq]
  split
  · exact raise _
  · have bound := (simulation (fun _ => True) fun _ => True).assignAll ()
      (fun _ _ _ _ => assign trivial) function.params results
    exact inFrame _ _ (bind bound fun _ _ _ => body)

theorem evaluateNode (interpreter : Interpreter) (rounds : Nat) {evaluate : Expr → Run Value}
    {node : Expr} (within : node.Within names targets)
    (nodes : ∀ child ∈ node.children, Agrees names targets Value.SameTree (evaluate child)
      (evaluate child))
    (bodies : ∀ body, Agrees (fun _ => True) (fun _ => True) Value.SameTree (evaluate body)
      (evaluate body)) :
    Agrees names targets Value.SameTree (Expr.evaluateNode interpreter rounds evaluate node)
      (Expr.evaluateNode interpreter rounds evaluate node) := by
  have alike : (simulation names targets).Corresponds evaluate evaluate node node :=
    .refl (fun child member _ => nodes child member) (fun _ _ => rfl)
      (fun _ own _ => lookup (within.name own))
      (fun _ own _ _ _ results => assign (within.target own) results) fun _ => rfl
  have loops : (simulation names targets).Loops interpreter interpreter rounds rounds evaluate
      evaluate :=
    Simulation.loops (fun _ => checkpoint interpreter) (fun _ event => record event event)
      (fun _ _ => unfinished) rounds
  have calls : (simulation names targets).Calls interpreter interpreter evaluate evaluate := by
    intro _ function function' args args' span span' place called results
    obtain rfl : span = span' := place
    obtain rfl : function = function' := Tree.function.inj called
    exact callFunction interpreter function span (bodies function.body) results
  exact Simulation.evaluateNode alike loops (fun _ => calls) ()

end Run.Agrees

/-- Evaluations of a node from states that agree on its names come to the same end. The induction is
on the fuel, for all names at once: a body may mention any. -/
theorem Expr.eval_agrees (interpreter : Interpreter) (fuel : Nat) {names targets : String → Prop}
    {node : Expr} (within : node.Within names targets) :
    Run.Agrees names targets Value.SameTree (eval interpreter fuel node)
      (eval interpreter fuel node) := by
  induction fuel generalizing names targets node with
  | zero => exact .unfinished
  | succ fuel inductionHypothesis =>
    rw [eval_succ, visit_eq]
    exact .stamped _ (.bind (.enter node) fun _ _ _ => .evaluateNode interpreter fuel within
      (fun _ member => inductionHypothesis (within.child member))
      fun body => inductionHypothesis (.everything body))

/-- From two contexts that look the same in a backtrace and agree on the names that a program
mentions outside of function bodies, its evaluations come to the same end: the same value, read as a
tree, or the same failure with its span and backtrace, after the same number of steps, and the
contexts agree on those names afterwards. And however an evaluation ends, names that the program
does not bind are bound to what they were bound to before, and no name is unbound. -/
theorem evaluation_touches_own_names (interpreter : Interpreter) (fuel : Nat) (program : Expr)
    (state : State) :
    (∀ state' : State, state.context.AgreesOn program.Names state'.context →
      (interpreter.evaluate fuel program state).Agrees program.Names program.Targets
        Value.SameTree state.context state'.context
        (interpreter.evaluate fuel program state')) ∧
    ∀ after, (interpreter.evaluate fuel program state).after? = some after →
      state.context.KeptUpTo program.Targets after.context := by
  have agrees := Expr.eval_agrees interpreter fuel (.own program)
  refine ⟨fun state' agree => agrees { state with steps := 0 } { state' with steps := 0 }
    ⟨agree, rfl⟩, fun after left => ?_⟩
  have itself : State.AgreesOn program.Names { state with steps := 0 } { state with steps := 0 } :=
    ⟨⟨rfl, fun _ _ => rfl⟩, rfl⟩
  have alone : (interpreter.evaluate fuel program state).Agrees program.Names program.Targets
      Value.SameTree state.context state.context (interpreter.evaluate fuel program state) :=
    agrees _ _ itself
  generalize interpreter.evaluate fuel program state = ending at alone left
  cases alone with
  | value results leave =>
    cases left
    exact leave.kept
  | failure failure leave =>
    cases left
    exact leave.kept
  | unfinished => cases left

/-- A name is given the value of another one: this goes the same way whatever a third name is bound
to, and leaves the third name alone. -/
theorem third_name_left_alone :
    let program : Expr := .assign ⟨0, 5⟩ "x" (.lookup ⟨4, 5⟩ "y")
    let state : State := .initial (((Context.root "main").set "z" (.int 7)).set "y" (.int 1))
    let state' : State := .initial ((Context.root "main").set "y" (.int 1))
    let interpreter : Interpreter := .ofLimits (.bounded 5 5)
    ∃ value value' after after',
      interpreter.evaluate 2 program state = .value value after ∧
      interpreter.evaluate 2 program state' = .value value' after' ∧
      value.tree = value'.tree ∧ after.context.get? "z" = some (.int 7) := by
  intro program state state' interpreter
  have untouched : ¬ program.Names "z" := by
    rw [Expr.names_iff]
    rintro (own | ⟨child, member, inside⟩)
    · exact absurd own (by decide)
    · obtain rfl := List.mem_singleton.mp member
      rw [Expr.names_iff] at inside
      rcases inside with own | ⟨_, none, _⟩
      · exact absurd own (by decide)
      · cases none
  have agree : state.context.AgreesOn program.Names state'.context := by
    refine ⟨rfl, fun name mentioned => ?_⟩
    have other : name ≠ "z" := fun same => untouched (same ▸ mentioned)
    by_cases here : name = "y"
    · subst here
      rfl
    · show (Context.get? (Context.set _ "y" _) name).map _ =
        (Context.get? (Context.set _ "y" _) name).map _
      rw [Context.get?_set_of_ne _ here, Context.get?_set_of_ne _ here,
        Context.get?_set_of_ne _ other]
  have ended : (match interpreter.evaluate 2 program state with
      | .value _ _ => true
      | _ => false) = true := by decide +kernel
  obtain ⟨same, kept⟩ := evaluation_touches_own_names interpreter 2 program state
  have agrees := same state' agree
  generalize interpreter.evaluate 2 program state = ending at ended kept agrees
  generalize interpreter.evaluate 2 program state' = ending' at agrees
  cases agrees with
  | @value value value' after after' results leave =>
    exact ⟨value, value', after, after', rfl, rfl, results,
      (kept after rfl).unchanged "z" fun target => untouched target.names⟩
  | failure | unfinished => cases ended

end Treewalk

/-
This file proves that the evaluator computes what the reference computes.

Reading a state forgets which objects its arrays are, and keeps what they hold (`State.store`). An
evaluation never looks at the number of an object, and it never writes to one: to assign, to call
and to append are to bind names to values that exist or to make new ones. So reading and evaluating
can be done in either order (`Expr.eval_reads`), whatever is shared in the state.

The reference is an evaluator of its own, which says anew what a node of each kind does. So this is
no simulation between two runs of the evaluator: the two definitions are compared kind by kind
(`Run.Reads.evaluateNode`).
-/
import Treewalk.Proofs.Parameters
import Treewalk.Proofs.Parts
import Treewalk.Proofs.Reference

namespace Treewalk

variable {Result Other Image OtherImage : Type}

/-! ### Reading -/

/-- What is bound in a frame, as trees. -/
def Frame.trees (frame : Frame) (name : String) : Option Tree :=
  (frame.scope.get? name).map Value.tree

/-- What is bound in a state, as trees. -/
def State.store (state : State) : Store where
  bindings := state.context.frame.trees
  callers := state.context.callers.map Frame.trees
  steps := state.steps

/-- How a run ended, as a computation with trees ends. -/
def Outcome.read (read : Result → Image) : Outcome Result → Option (Except Failure Image × Store)
  | value result after => some (.ok (read result), after.store)
  | failure reason after => some (.error reason.bare, after.store)
  | unfinished => none

theorem Context.bare_stamp (context : Context) (span : Span) (failure : Failure) :
    (context.stamp span failure).bare = failure.bare.placed span := by
  obtain ⟨fault, message, place, backtrace⟩ := failure
  cases backtrace <;> rfl

theorem Frame.trees_set (frame : Frame) (name : String) (value : Value) :
    Frame.trees { frame with scope := frame.scope.set name value } =
      fun other => if other = name then some value.tree else frame.trees other := by
  funext other
  unfold Frame.trees
  by_cases same : other = name
  · subst same
    rw [Scope.get?_set_self, if_pos rfl]
    rfl
  · rw [Scope.get?_set_of_ne _ same, if_neg same]

/-- Binding a name to a value binds it to the tree of the value. -/
theorem State.store_set (state : State) (name : String) (value : Value) :
    State.store { state with context := state.context.set name value } =
      state.store.set name value.tree :=
  congrArg (Store.mk · (state.context.callers.map Frame.trees) state.steps)
    (state.context.frame.trees_set name value)

/-! ### Computations with trees -/

namespace Plain

theorem bind_apply (first : Plain Result) (next : Result → Plain Other) (store : Store) :
    (first >>= next) store =
      match first store with
      | some (.ok result, after) => next result after
      | some (.error failure, after) => some (.error failure, after)
      | none => none := by
  show (first store).bind (fun pair => ExceptT.bindCont next pair.1 pair.2) = _
  rcases first store with _ | ⟨_ | _, after⟩ <;> rfl

theorem checkpoint_apply (interpreter : Interpreter) (store : Store) :
    checkpoint interpreter store =
      if interpreter.interrupted then some (.error (.ofFault .interrupted), store)
      else
        let counted := { store with steps := min (store.steps + 1) State.maxSteps }
        match interpreter.limits.budget with
        | none => some (.ok (), counted)
        | some budget =>
          if budget < counted.steps then some (.error (.ofFault (.budgetExceeded budget)), counted)
          else some (.ok (), counted) := by
  unfold checkpoint
  split
  · rfl
  · cases interpreter.limits.budget with
    | none => rfl
    | some budget =>
      show (if budget < min (store.steps + 1) State.maxSteps then
          raise (.budgetExceeded budget) else pure () : Plain Unit) _ = _
      dsimp only
      split <;> rfl

theorem lookup_apply (name : String) (store : Store) :
    lookup name store =
      match store.bindings name with
      | some tree => some (.ok tree, store)
      | none => some (.error (.ofFault (.undefinedVariable name)), store) := by
  show (match store.bindings name with
    | some tree => pure tree
    | none => raise (.undefinedVariable name) : Plain Tree) store = _
  cases store.bindings name <;> rfl

theorem stamped_apply (span : Span) (inner : Plain Result) (store : Store) :
    stamped span inner store =
      match inner store with
      | some (.ok result, after) => some (.ok result, after)
      | some (.error failure, after) => some (.error (failure.placed span), after)
      | none => none := by
  show (inner store).bind (fun pair => some (pair.1.mapError (Failure.placed span), pair.2)) = _
  rcases inner store with _ | ⟨_ | _, after⟩ <;> rfl

end Plain

/-! ### Runs that compute what computations with trees do -/

/-- Whether reading after a run gives what a computation with trees gives after reading. -/
def Run.Reads (read : Result → Image) (run : Run Result) (plain : Plain Image) : Prop :=
  ∀ state, plain state.store = (run state).read read

namespace Run.Reads

variable {read : Result → Image} {readOther : Other → OtherImage}

theorem pure (result : Result) : Reads read (Pure.pure result) (Pure.pure (read result)) :=
  fun _ => rfl

theorem unfinished : Reads read Run.unfinished Plain.unfinished := fun _ => rfl

theorem raise (fault : Fault) : Reads read (Run.raise fault) (Plain.raise fault) := fun _ => rfl

theorem bind {first : Run Result} {plain : Plain Image} {next : Result → Run Other}
    {plainNext : Image → Plain OtherImage} (start : Reads read first plain)
    (rest : ∀ result, Reads readOther (next result) (plainNext (read result))) :
    Reads readOther (first >>= next) (plain >>= plainNext) := by
  intro state
  rw [Plain.bind_apply, bind_apply, start state]
  cases first state with
  | value result after => exact rest result after
  | failure reason after => rfl
  | unfinished => rfl

/-- A run that a computation with trees knows nothing of. -/
theorem skip {first : Run Result} {next : Result → Run Other} {plain : Plain OtherImage}
    (still : ∀ state, ∃ result after, first state = .value result after ∧
      after.store = state.store)
    (rest : ∀ result, Reads readOther (next result) plain) :
    Reads readOther (first >>= next) plain := by
  intro state
  obtain ⟨result, after, same, store⟩ := still state
  rw [bind_apply, same, ← store]
  exact rest result after

theorem ofExcept {result : Except Fault Result} {image : Except Fault Image}
    (same : image = result.map read) :
    Reads read (Run.ofExcept result) (Plain.ofExcept image) := by
  subst same
  intro state
  cases result <;> rfl

theorem stamped (span : Span) {inner : Run Result} {plain : Plain Image}
    (reads : Reads read inner plain) :
    Reads read (Run.stamped span inner) (Plain.stamped span plain) := by
  intro state
  rw [stamped_eq, wrapped_apply, Plain.stamped_apply, reads state]
  show _ = Outcome.read read (match inner state with
    | .value result last => .value result last
    | .failure failure last => .failure (last.context.stamp span failure) last
    | .unfinished => .unfinished)
  cases inner state with
  | value result last => rfl
  | failure reason last =>
    show some (Except.error (reason.bare.placed span), last.store) =
      some (Except.error (last.context.stamp span reason).bare, last.store)
    rw [Context.bare_stamp]
  | unfinished => rfl

theorem between (before after : Event) {inner : Run Result} {plain : Plain Image}
    (reads : Reads read inner plain) : Reads read (Run.between before after inner) plain := by
  intro state
  have inside := reads (state.record before)
  rw [between_eq, wrapped_apply]
  generalize inner (state.record before) = ending at inside
  rw [show state.store = (state.record before).store from rfl, inside]
  cases ending <;> rfl

theorem lookup (name : String) : Reads Value.tree (Run.lookup name) (Plain.lookup name) := by
  intro state
  rw [Run.lookup_apply, Plain.lookup_apply]
  show (match (state.context.get? name).map Value.tree with
    | some tree => some (Except.ok tree, state.store)
    | none => some (Except.error (Failure.ofFault (.undefinedVariable name)), state.store)) = _
  cases state.context.get? name <;> rfl

theorem assign (name : String) (value : Value) :
    Reads id (Run.assign name value) (Plain.assign name value.tree) := by
  intro state
  show some (Except.ok (), state.store.set name value.tree) = some (Except.ok (), _)
  rw [← State.store_set]
  rfl

theorem checkpoint (interpreter : Interpreter) :
    Reads id interpreter.checkpoint (Plain.checkpoint interpreter) := by
  intro state
  rw [Interpreter.checkpoint_apply, Plain.checkpoint_apply]
  split
  · rfl
  · cases interpreter.limits.budget with
    | none => rfl
    | some budget =>
      show (if budget < state.counted.steps then _ else _) = _
      dsimp only
      split <;> rfl

theorem descend (interpreter : Interpreter) {inner : Run Result} {plain : Plain Image}
    (reads : Reads read inner plain) :
    Reads read (interpreter.descend inner) (do
      if interpreter.limits.maxDepth ≤ (← get).callers.length then
        Plain.raise (.stackOverflow interpreter.limits.maxDepth)
      else plain) := by
  intro state
  have depth : state.store.callers.length = state.context.depth := List.length_map _
  rw [Interpreter.descend_apply, ← depth]
  show (if interpreter.limits.maxDepth ≤ state.store.callers.length then _ else _ : Plain Image)
    state.store = _
  split
  · rfl
  · exact reads state

/-- What parameters are bound to, as trees, is what they are bound to when the arguments are
trees. -/
theorem lookup_map_tree (name : String) (bindings : List (String × Value)) :
    (bindings.lookup name).map Value.tree =
      (bindings.map (Prod.map id Value.tree)).lookup name := by
  induction bindings with
  | nil => rfl
  | cons head rest inductionHypothesis =>
    obtain ⟨other, value⟩ := head
    show _ = List.lookup name ((other, value.tree) :: rest.map (Prod.map id Value.tree))
    rw [List.lookup_cons, List.lookup_cons]
    cases name == other with
    | true => rfl
    | false => exact inductionHypothesis

theorem enterBody {evaluate : Expr → Run Value} {plain : Expr → Plain Tree}
    (function : Function) (reads : Reads Value.tree (evaluate function.body) (plain function.body))
    (args : List Value) (span : Span) :
    Reads Value.tree (Interpreter.enterBody evaluate function args span)
      (if (args.map Value.tree).length ≠ function.arity then
        Plain.raise
          (.arityMismatch function.displayName function.arity (args.map Value.tree).length)
      else
        Plain.inFrame (fun name => (function.params.zip (args.map Value.tree)).reverse.lookup name)
          (plain function.body)) := by
  unfold Interpreter.enterBody
  rw [List.length_map]
  split
  · exact raise _
  · intro state
    let child := state.context.child function.displayName span
    obtain ⟨journal, bound⟩ :=
      Run.assignAll_apply function.params args { state with context := child }
    let start : State := { state with context := child.setAll function.params args, journal }
    have bindings : start.context.frame.trees =
        fun name => (function.params.zip (args.map Value.tree)).reverse.lookup name := by
      funext name
      show (Context.get? _ name).map Value.tree = _
      rw [Context.get?_setAll, List.zip_map_right, ← List.map_reverse, ← lookup_map_tree]
      exact congrArg (Option.map Value.tree) Option.or_none
    have callers : start.context.callers.map Frame.trees =
        state.store.bindings :: state.store.callers := by
      show List.map _ (child.setAll function.params args).callers = _
      rw [Context.callers_setAll]
      rfl
    have started : start.store = state.store.child
        fun name => (function.params.zip (args.map Value.tree)).reverse.lookup name := by
      show Store.mk _ _ _ = Store.mk _ _ _
      rw [bindings, callers]
      rfl
    rw [inFrame_eq, wrapped_apply, bind_apply, bound, Plain.inFrame, ← started]
    dsimp only
    rw [reads start]
    cases evaluate function.body start <;> rfl

/-- A call is read as a call. -/
theorem callFunction (interpreter : Interpreter) {evaluate : Expr → Run Value}
    {plain : Expr → Plain Tree} (nodes : ∀ node, Reads Value.tree (evaluate node) (plain node))
    (function : Function) (args : List Value) (span : Span) :
    Reads Value.tree (interpreter.callFunction evaluate function args span)
      (Plain.callFunction interpreter plain function (args.map Value.tree)) := by
  rw [Interpreter.callFunction_eq]
  exact between _ _ (bind (checkpoint interpreter) fun _ =>
    descend interpreter (enterBody function (nodes function.body) args span))

/-! ### Nodes -/

variable {evaluate : Expr → Run Value} {plain : Expr → Plain Tree}

theorem evaluateAll (nodes : ∀ node, Reads Value.tree (evaluate node) (plain node))
    (items : List Expr) :
    Reads (List.map Value.tree) (Expr.evaluateAll evaluate items) (items.mapM plain) := by
  induction items with
  | nil => exact pure []
  | cons item rest inductionHypothesis =>
    rw [List.mapM_cons]
    exact bind (nodes item) fun value => bind inductionHypothesis fun values =>
      pure (value :: values)

theorem evaluateOptional (nodes : ∀ node, Reads Value.tree (evaluate node) (plain node))
    (node : Option Expr) :
    Reads (Option.map Value.tree) (Expr.evaluateOptional evaluate node) (node.mapM plain) := by
  cases node with
  | none => exact pure none
  | some node =>
    rw [Option.mapM_some, map_eq_pure_bind]
    exact bind (nodes node) fun value => pure (some value)

theorem evaluateCases (nodes : ∀ node, Reads Value.tree (evaluate node) (plain node))
    (otherwise : Option Expr) (cases : List (Expr × Expr)) :
    Reads Value.tree (Expr.evaluateCases evaluate otherwise cases)
      (Plain.evaluateCases plain otherwise cases) := by
  induction cases with
  | nil =>
    cases otherwise with
    | none => exact pure Value.void
    | some node => exact nodes node
  | cons head rest inductionHypothesis =>
    refine bind (nodes head.1) fun value => ?_
    rw [Value.isTruthy_tree]
    split
    · exact nodes head.2
    · exact inductionHypothesis

/-- What the rounds of a counting loop add to the values that there are already. -/
theorem forRounds (interpreter : Interpreter)
    (nodes : ∀ node, Reads Value.tree (evaluate node) (plain node)) (name : String) (body : Expr)
    (rounds : Nat) (range : Range) (values : List Value) :
    Reads (List.map Value.tree)
      (Run.iterate (Expr.forTurn interpreter evaluate name body) rounds (range, values))
      (Plain.forRounds interpreter plain name body rounds range >>= fun trees =>
        Pure.pure (values.reverse.map Value.tree ++ trees)) := by
  induction rounds generalizing range values with
  | zero => exact fun _ => rfl
  | succ rounds inductionHypothesis =>
    rw [iterate_succ, Plain.forRounds]
    dsimp only [Expr.forTurn]
    rcases range.next with ⟨_ | current, rest⟩
    · dsimp only
      rw [pure_bind, pure_bind, List.append_nil]
      exact pure values.reverse
    · simp only [bind_assoc, pure_bind]
      refine bind (checkpoint interpreter) fun _ => bind (assign name (.number current)) fun _ =>
        bind (nodes body) fun value => ?_
      have later := inductionHypothesis rest (value :: values)
      simp only [List.reverse_cons, List.map_append, List.append_assoc] at later
      exact later

theorem whileRounds (interpreter : Interpreter)
    (nodes : ∀ node, Reads Value.tree (evaluate node) (plain node)) (condition body : Expr)
    (rounds : Nat) (values : List Value) :
    Reads (List.map Value.tree)
      (Run.iterate (Expr.whileTurn interpreter evaluate condition body) rounds values)
      (Plain.whileRounds interpreter plain condition body rounds >>= fun trees =>
        Pure.pure (values.reverse.map Value.tree ++ trees)) := by
  induction rounds generalizing values with
  | zero => exact fun _ => rfl
  | succ rounds inductionHypothesis =>
    rw [iterate_succ, Plain.whileRounds, Expr.whileTurn]
    simp only [bind_assoc]
    refine bind (checkpoint interpreter) fun _ => bind (nodes condition) fun value => ?_
    rw [Value.isTruthy_tree]
    split
    · simp only [bind_assoc, pure_bind]
      refine bind (nodes body) fun value => ?_
      have later := inductionHypothesis (value :: values)
      simp only [List.reverse_cons, List.map_append, List.append_assoc] at later
      exact later
    · rw [pure_bind, pure_bind, List.append_nil]
      exact pure values.reverse

theorem newArray (items : List Value) :
    Reads Value.tree (Run.newArray items) (Pure.pure (.array (items.map Value.tree))) := by
  intro state
  show _ = some (Except.ok (Value.ofItems state.nextObject items).tree, _)
  rw [Value.tree_ofItems]
  rfl

theorem evaluateNode (interpreter : Interpreter)
    (nodes : ∀ node, Reads Value.tree (evaluate node) (plain node)) (rounds : Nat) (node : Expr) :
    Reads Value.tree (Expr.evaluateNode interpreter rounds evaluate node)
      (Plain.evaluateNode interpreter rounds plain node) := by
  cases node with
  | number span value => exact pure _
  | string span value => exact pure _
  | array span items => exact bind (evaluateAll nodes items) fun values => newArray values
  | lookup span name => exact lookup name
  | assign span name value =>
    exact bind (nodes value) fun value => bind (assign name value) fun _ => pure value
  | binary span op left right =>
    refine bind (nodes left) fun left => bind (nodes right) fun right => ?_
    refine skip (fun state => ⟨state.nextObject, _, rfl, rfl⟩) fun object => ?_
    exact ofExcept (op.ofTrees_tree object left right)
  | unary span op operand =>
    exact bind (nodes operand) fun operand => ofExcept (op.ofTree_tree operand)
  | conditional span cases otherwise => exact evaluateCases nodes otherwise cases
  | forLoop span name start stop step body =>
    refine bind (nodes start) fun start => bind (nodes stop) fun stop =>
      bind (evaluateOptional nodes step) fun step => ?_
    have ranged : Range.ofTrees start.tree stop.tree (step.map Value.tree) =
        (Range.ofBounds start stop step).map id := by
      rw [Range.ofTrees_tree]
      cases Range.ofBounds start stop step <;> rfl
    refine bind (ofExcept ranged) fun range => ?_
    have looped := forRounds interpreter nodes name body rounds range []
    rw [List.reverse_nil, List.map_nil] at looped
    simp only [List.nil_append, bind_pure] at looped
    exact bind looped fun values => skip (fun state => ⟨(), _, rfl, rfl⟩) fun _ => newArray values
  | whileLoop span condition body =>
    have looped := whileRounds interpreter nodes condition body rounds []
    rw [List.reverse_nil, List.map_nil] at looped
    simp only [List.nil_append, bind_pure] at looped
    exact bind looped fun values => skip (fun state => ⟨(), _, rfl, rfl⟩) fun _ => newArray values
  | define span name params site body =>
    cases name with
    | none => exact pure _
    | some name =>
      exact bind (assign name _) fun _ => pure _
  | call span callee args =>
    refine bind (nodes callee) fun callee => bind (evaluateAll nodes args) fun args => ?_
    cases callee with
    | function function => exact callFunction interpreter nodes function args span
    | number | string | array | void => exact raise _

end Run.Reads

/-- Reading after an evaluation gives what the reference gives after reading. -/
theorem Expr.eval_reads (interpreter : Interpreter) (fuel : Nat) (node : Expr) :
    Run.Reads Value.tree (eval interpreter fuel node) (Plain.eval interpreter fuel node) := by
  induction fuel generalizing node with
  | zero => exact .unfinished
  | succ fuel inductionHypothesis =>
    rw [eval_succ, visit_eq]
    exact .stamped _ (.skip (fun state => ⟨(), _, rfl, rfl⟩) fun _ =>
      .evaluateNode interpreter inductionHypothesis fuel node)

end Treewalk

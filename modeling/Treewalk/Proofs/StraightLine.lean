/-
This file proves in which order straight-line code is evaluated, and where it is when it fails.

Without conditionals, loops and calls, nothing decides what is evaluated next. Every node is
visited, then its children are evaluated from left to right, and then the node completes: it takes
the values of its children and comes to its own one, and this is where a name is bound and where a
fault is raised. So an evaluation follows the tour of its program with a stack of values
(`follow_tour`): it visits a node on the way down and completes it on the way up. Neither the limits
nor the interrupt have a part in it, since there is no checkpoint on the way.

An evaluation that fails is a tour that is broken off where it comes up out of a node
(`follow_eq_failure`). What it has visited and bound until then can be read off the tour.
-/
import Treewalk.Proofs.Footprint
import Treewalk.Proofs.Limits
import Treewalk.Proofs.Sites
import Treewalk.Proofs.Tour

namespace Treewalk

namespace Expr

/-! ### Straight-line code -/

/-- Whether the node always has all of its children evaluated, once and in the same frame. -/
def isStraight : Expr → Bool
  | conditional .. | forLoop .. | whileLoop .. | call .. => false
  | _ => true

/-- Whether a program is straight-line code. The bodies of the functions that it defines may be
anything. -/
def Straight (program : Expr) : Prop := ∀ part, program.Part part → part.isStraight = true

theorem straight_iff {node : Expr} :
    node.Straight ↔ node.isStraight = true ∧ ∀ child ∈ node.children, child.Straight := by
  constructor
  · intro straight
    exact ⟨straight node (.self node),
      fun child member part inside => straight part (.inner member inside)⟩
  · rintro ⟨own, below⟩ part inside
    cases inside with
    | self => exact own
    | inner member inside => exact below _ member part inside

/-- What a node does once the values of its children are there. A node that is none of straight-line
code is not completed this way. -/
def complete : Expr → List Value → Run Value
  | number _ value, [] => pure (.number value)
  | string _ value, [] => pure (.string value)
  | array .., items => Run.newArray items
  | lookup _ name, [] => Run.lookup name
  | assign _ name _, [value] => do
    Run.assign name value
    pure value
  | binary _ op _ _, [left, right] => do
    let object ← Run.newObject
    Run.ofExcept (op.apply object left right)
  | unary _ op _, [operand] => Run.ofExcept (op.apply operand)
  | define _ none params site body, [] => pure (.function ⟨none, params, site, body⟩)
  | define _ (some name) params site body, [] => do
    Run.assign name (.function ⟨some name, params, site, body⟩)
    pure (.function ⟨some name, params, site, body⟩)
  | _, _ => Run.unfinished

variable {interpreter : Interpreter}

/-- A node of straight-line code is its children and then its completion. -/
theorem evaluateNode_eq_complete {node : Expr} (straight : node.isStraight = true) (rounds : Nat)
    (evaluate : Expr → Run Value) :
    evaluateNode interpreter rounds evaluate node =
      evaluateAll evaluate node.children >>= node.complete := by
  cases node with
  | number | string | lookup => rfl
  | array => rfl
  | assign | binary | unary => simp [evaluateNode, children, evaluateAll, complete]
  | define span name => cases name <;> rfl
  | conditional | forLoop | whileLoop | call => cases straight

/-- A node of straight-line code can always be completed. -/
theorem complete_finishes {node : Expr} (straight : node.isStraight = true) {values : List Value}
    (each : values.length = node.children.length) (state : State) :
    node.complete values state ≠ .unfinished := by
  have ofExcept (computed : Except Fault Value) (state : State) :
      Run.ofExcept computed state ≠ .unfinished := by cases computed <;> rintro ⟨⟩
  cases node with
  | number | string =>
    obtain rfl := List.eq_nil_of_length_eq_zero each
    rintro ⟨⟩
  | array => rintro ⟨⟩
  | lookup span name =>
    obtain rfl := List.eq_nil_of_length_eq_zero each
    show Run.lookup name state ≠ _
    rw [Run.lookup_apply]
    split <;> rintro ⟨⟩
  | assign =>
    obtain ⟨value, rfl⟩ := List.length_eq_one_iff.mp each
    rintro ⟨⟩
  | binary =>
    cases values with
    | nil => cases each
    | cons left rest =>
      obtain ⟨right, rfl⟩ := List.length_eq_one_iff.mp (Nat.succ.inj each)
      exact ofExcept _ _
  | unary =>
    obtain ⟨operand, rfl⟩ := List.length_eq_one_iff.mp each
    exact ofExcept _ _
  | define span name =>
    obtain rfl := List.eq_nil_of_length_eq_zero each
    cases name <;> rintro ⟨⟩
  | conditional | forLoop | whileLoop | call => cases straight

end Expr

/-! ### What is done on the way -/

/-- The name and the value of a binding. -/
def Event.binding? : Event → Option (String × Value)
  | .bound _ name value => some (name, value)
  | _ => none

/-- All that was bound, the earliest first. -/
def Journal.bindings (journal : Journal) : List (String × Value) :=
  journal.reverse.filterMap Event.binding?

/-- Binds names to values, in order. -/
def Context.bind (context : Context) (bindings : List (String × Value)) : Context :=
  bindings.foldl (fun context binding => context.set binding.1 binding.2) context

/-- What lies between two states of an evaluation: nodes were visited, the names of nodes that were
completed were bound, both in order, and nothing else has changed the context. No step was
counted. -/
structure State.Passes (before after : State) (visited completed : List Expr) : Prop where
  steps : after.steps = before.steps
  journal : ∃ added, after.journal = added ++ before.journal ∧ Journal.nodes added = visited ∧
    (Journal.bindings added).map Prod.fst = completed.filterMap Expr.target? ∧
    after.context = before.context.bind (Journal.bindings added)

namespace State.Passes

variable {before middle after : State} {visited visited' completed completed' : List Expr}

theorem trans (first : before.Passes middle visited completed)
    (second : middle.Passes after visited' completed') :
    before.Passes after (visited ++ visited') (completed ++ completed') := by
  obtain ⟨steps, early, journal, rfl, names, context⟩ := first
  obtain ⟨steps', late, journal', rfl, names', context'⟩ := second
  have bindings : Journal.bindings (late ++ early) =
      Journal.bindings early ++ Journal.bindings late := by
    rw [Journal.bindings, List.reverse_append, List.filterMap_append]
    rfl
  refine ⟨steps'.trans steps, late ++ early, ?_, ?_, ?_, ?_⟩
  · rw [journal', journal, List.append_assoc]
  · rw [Journal.nodes, List.reverse_append, List.filterMap_append]
    rfl
  · rw [bindings, List.map_append, names, names', List.filterMap_append]
  · rw [bindings, context', context, Context.bind, Context.bind, Context.bind, List.foldl_append]

/-- Nothing happened but that an object was made. -/
theorem still (steps : after.steps = before.steps) (journal : after.journal = before.journal)
    (context : after.context = before.context) (none : completed.filterMap Expr.target? = []) :
    before.Passes after [] completed :=
  ⟨steps, [], journal, rfl, none.symm, context⟩

theorem raised (state : State) (fault : Fault) :
    state.Passes (state.record (.raised fault)) [] [] :=
  ⟨rfl, [.raised fault], rfl, rfl, rfl, rfl⟩

theorem entered (state : State) (node : Expr) :
    state.Passes (state.record (.visited state.context node)) [node] [] :=
  ⟨rfl, [.visited state.context node], rfl, rfl, rfl, rfl⟩

theorem assigned {state : State} {name : String} {value : Value} {node : Expr}
    (target : node.target? = some name) (assigned : Run.assign name value state = .value () after) :
    state.Passes after [] [node] := by
  cases assigned
  refine ⟨rfl, [.bound state.context name value], rfl, rfl, ?_, rfl⟩
  rw [List.filterMap_cons_some target]
  rfl

end State.Passes

namespace Expr

variable {node : Expr} {values : List Value} {state after : State}

/-- A node that completes binds its name, if it has one to bind. -/
theorem passes_of_complete {value : Value}
    (done : node.complete values state = .value value after) : state.Passes after [] [node] := by
  have ofExcept {computed : Except Fault Value} {state : State}
      (done : Run.ofExcept computed state = .value value after) : after = state := by
    cases computed with
    | ok result =>
      cases done
      rfl
    | error fault => cases done
  unfold complete at done
  split at done
  · cases done
    exact .still rfl rfl rfl rfl
  · cases done
    exact .still rfl rfl rfl rfl
  · cases done
    exact .still rfl rfl rfl rfl
  · rw [Run.lookup_apply] at done
    split at done
    · cases done
      exact .still rfl rfl rfl rfl
    · cases done
  · cases done
    exact .assigned rfl rfl
  · obtain rfl := ofExcept done
    exact .still rfl rfl rfl rfl
  · obtain rfl := ofExcept done
    exact .still rfl rfl rfl rfl
  · cases done
    exact .still rfl rfl rfl rfl
  · cases done
    exact .assigned rfl rfl
  · cases done

/-- A node that fails to complete raises a fault and binds nothing. -/
theorem passes_of_complete_fails {failure : Failure}
    (failed : node.complete values state = .failure failure after) :
    ∃ fault, failure = .ofFault fault ∧ state.Passes after [] [] := by
  have ofExcept {computed : Except Fault Value} {middle : State} (made : state.Passes middle [] [])
      (failed : Run.ofExcept computed middle = .failure failure after) :
      ∃ fault, failure = .ofFault fault ∧ state.Passes after [] [] := by
    cases computed with
    | ok result => cases failed
    | error fault =>
      cases failed
      exact ⟨fault, rfl, made.trans (.raised middle fault)⟩
  unfold complete at failed
  split at failed
  · cases failed
  · cases failed
  · cases failed
  · rw [Run.lookup_apply] at failed
    split at failed
    · cases failed
    · cases failed
      exact ⟨_, rfl, .raised state _⟩
  · cases failed
  · rcases Run.bind_eq_failure failed with none | ⟨object, middle, made, failed⟩
    · cases none
    · cases made
      refine ofExcept ?_ failed
      exact .still rfl rfl rfl rfl
  · exact ofExcept (.still rfl rfl rfl rfl) failed
  · cases failed
  · cases failed
  · cases failed

/-! ### Children -/

theorem length_of_evaluateAll {evaluate : Expr → Run Value} {items : List Expr}
    (done : evaluateAll evaluate items state = .value values after) :
    values.length = items.length := by
  induction items generalizing state values with
  | nil =>
    cases done
    rfl
  | cons item rest inductionHypothesis =>
    obtain ⟨value, middle, -, later⟩ := Run.bind_eq_value done
    obtain ⟨others, last, rest, made⟩ := Run.bind_eq_value later
    cases made
    exact congrArg (· + 1) (inductionHypothesis rest)

theorem located_of_evaluateAll {fuel : Nat} {items : List Expr} {failure : Failure}
    (failed : evaluateAll (eval interpreter fuel) items state = .failure failure after) :
    failure.backtrace.isSome := by
  induction items generalizing state with
  | nil => cases failed
  | cons item rest inductionHypothesis =>
    rcases Run.bind_eq_failure failed with here | ⟨value, middle, -, later⟩
    · exact (located_of_failure here).2
    · rcases Run.bind_eq_failure later with there | ⟨others, last, -, made⟩
      · exact inductionHypothesis there
      · cases made

theorem evaluateAll_finishes {evaluate : Expr → Run Value} {items : List Expr}
    (each : ∀ item ∈ items, ∀ state, evaluate item state ≠ .unfinished) (state : State) :
    evaluateAll evaluate items state ≠ .unfinished := by
  induction items generalizing state with
  | nil => exact nofun
  | cons item rest inductionHypothesis =>
    have later := inductionHypothesis fun other member => each other (List.mem_cons_of_mem _ member)
    have first := each item List.mem_cons_self state
    rw [evaluateAll, Run.bind_apply]
    cases found : evaluate item state with
    | value value middle =>
      dsimp only
      rw [Run.bind_apply]
      have there := later middle
      cases known : evaluateAll evaluate rest middle with
      | value | failure => exact nofun
      | unfinished => exact fun _ => there known
    | failure => exact nofun
    | unfinished => exact fun _ => first found

/-- A node of straight-line code is visited, its children are evaluated, and it completes. A failure
of a child goes through as it is. -/
theorem eval_eq_complete (straight : node.isStraight = true) (fuel : Nat) :
    eval interpreter (fuel + 1) node = (do
      Run.enter node
      let values ← evaluateAll (eval interpreter fuel) node.children
      Run.stamped node.span (node.complete values)) := by
  funext state
  rw [eval_succ, visit_apply, evaluateNode_eq_complete straight, Run.bind_apply]
  show _ = (evaluateAll (eval interpreter fuel) node.children >>= fun values =>
    Run.stamped node.span (node.complete values)) (state.record (.visited state.context node))
  rw [Run.bind_apply]
  cases known : evaluateAll (eval interpreter fuel) node.children
      (state.record (.visited state.context node)) with
  | value values after =>
    dsimp only
    unfold Run.stamped
    cases node.complete values after <;> rfl
  | failure failure after =>
    dsimp only
    rw [Context.stamp_of_located _ _ (located_of_evaluateAll known)]
  | unfinished => rfl

/-- Fuel for a node is fuel for its children. -/
theorem exists_less {fuel : Nat} (enough : sizeOf node ≤ fuel) :
    ∃ less, fuel = less + 1 ∧ ∀ child ∈ node.children, sizeOf child ≤ less := by
  cases fuel with
  | zero => cases node <;> simp at enough
  | succ less =>
    exact ⟨less, rfl, fun child member =>
      Nat.le_of_lt_succ (Nat.lt_of_lt_of_le (sizeOf_lt_of_mem_children member) enough)⟩

theorem eval_finishes (straight : node.Straight) {fuel : Nat} (enough : sizeOf node ≤ fuel)
    (state : State) : eval interpreter fuel node state ≠ .unfinished := by
  induction node using childInduction generalizing fuel state with
  | step node inductionHypothesis =>
    obtain ⟨less, rfl, fits⟩ := exists_less enough
    obtain ⟨own, inner⟩ := straight_iff.mp straight
    have below (state : State) := evaluateAll_finishes (fun child member =>
      inductionHypothesis child member (inner child member) (fits child member)) state
    rw [eval_eq_complete own]
    show (evaluateAll (eval interpreter less) node.children >>= fun values =>
      Run.stamped node.span (node.complete values)) (state.record (.visited state.context node)) ≠ _
    rw [Run.bind_apply]
    cases known : evaluateAll (eval interpreter less) node.children
        (state.record (.visited state.context node)) with
    | value values middle =>
      have completes := complete_finishes own (length_of_evaluateAll known) middle
      dsimp only
      unfold Run.stamped
      cases done : node.complete values middle with
      | value | failure => exact nofun
      | unfinished => exact fun _ => completes done
    | failure => exact nofun
    | unfinished => exact fun _ => below _ known

/-! ### Following a tour -/

/-- Follows a tour, or a part of it, with the values of the nodes that were left and whose parents
were not: the latest first. -/
def follow : List Passage → List Value → Run (List Value)
  | [], stack => pure stack
  | .down node :: later, stack => do
    Run.enter node
    follow later stack
  | .up node :: later, stack => do
    let value ← Run.stamped node.span
      (node.complete (stack.take node.children.length).reverse)
    follow later (value :: stack.drop node.children.length)

theorem follow_flatMap_tour {nodes : List Expr} {evaluate : Expr → Run Value}
    (each : ∀ node ∈ nodes, ∀ later stack, follow (node.tour ++ later) stack =
      evaluate node >>= fun value => follow later (value :: stack))
    (later : List Passage) (stack : List Value) :
    follow (nodes.flatMap tour ++ later) stack =
      evaluateAll evaluate nodes >>= fun values => follow later (values.reverse ++ stack) := by
  induction nodes generalizing stack with
  | nil => rfl
  | cons node rest inductionHypothesis =>
    have others := inductionHypothesis
      fun other member => each other (List.mem_cons_of_mem _ member)
    rw [List.flatMap_cons, List.append_assoc, each node List.mem_cons_self, evaluateAll]
    simp only [others, bind_assoc, pure_bind, List.reverse_cons, List.append_assoc,
      List.singleton_append]

/-- To evaluate a node of straight-line code is to follow its tour. -/
theorem follow_tour (straight : node.Straight) {fuel : Nat} (enough : sizeOf node ≤ fuel)
    (later : List Passage) (stack : List Value) :
    follow (node.tour ++ later) stack =
      eval interpreter fuel node >>= fun value => follow later (value :: stack) := by
  induction node using childInduction generalizing fuel later stack with
  | step node inductionHypothesis =>
    obtain ⟨less, rfl, fits⟩ := exists_less enough
    obtain ⟨own, inner⟩ := straight_iff.mp straight
    have below := follow_flatMap_tour (fun child member =>
      inductionHypothesis child member (inner child member) (fits child member))
      (.up node :: later) stack
    rw [eval_eq_complete own, tour_eq, descent, List.append_assoc, List.cons_append]
    show (Run.enter node >>= fun _ =>
      follow (node.children.flatMap tour ++ .up node :: later) stack) = _
    rw [below]
    simp only [bind_assoc]
    refine congrArg (Run.enter node >>= ·) (funext fun _ => funext fun state => ?_)
    rw [Run.bind_apply, Run.bind_apply]
    cases known : evaluateAll (eval interpreter less) node.children state with
    | value values middle =>
      -- On the way up, the values of the children are those on top.
      have each : values.reverse.length = node.children.length :=
        List.length_reverse.trans (length_of_evaluateAll known)
      dsimp only
      rw [follow, List.take_left' each, List.drop_left' each, List.reverse_reverse]
    | failure | unfinished => rfl

/-- What was visited and completed on a part of a tour is what the part goes into and out of. -/
theorem passes_of_follow {passages : List Passage} {stack : List Value}
    (done : follow passages stack state = .value values after) :
    state.Passes after (passages.filterMap Passage.entered?)
      (passages.filterMap Passage.left?) := by
  induction passages generalizing stack state with
  | nil =>
    cases done
    exact .still rfl rfl rfl rfl
  | cons passage later inductionHypothesis =>
    cases passage with
    | down node => exact (State.Passes.entered state node).trans (inductionHypothesis done)
    | up node =>
      obtain ⟨value, middle, completed, done⟩ := Run.bind_eq_value done
      rw [Run.stamped_eq] at completed
      obtain ⟨last, inside, rfl⟩ := Run.wrapped_eq_value completed
      exact (passes_of_complete inside).trans (inductionHypothesis done)

/-- A tour that is broken off is broken off where it comes up out of a node. -/
theorem follow_eq_failure {passages : List Passage} {stack : List Value} {failure : Failure}
    (failed : follow passages stack state = .failure failure after) :
    ∃ behind node ahead given middle, passages = behind ++ .up node :: ahead ∧
      follow behind stack state = .value given middle ∧
      Run.stamped node.span (node.complete (given.take node.children.length).reverse) middle =
        .failure failure after := by
  induction passages generalizing stack state with
  | nil => cases failed
  | cons passage later inductionHypothesis =>
    cases passage with
    | down node =>
      obtain ⟨behind, part, ahead, given, middle, rfl, followed, stopped⟩ :=
        inductionHypothesis failed
      exact ⟨.down node :: behind, part, ahead, given, middle, rfl, followed, stopped⟩
    | up node =>
      rcases Run.bind_eq_failure failed with here | ⟨value, there, completed, failed⟩
      · exact ⟨[], node, later, stack, state, rfl, rfl, here⟩
      · obtain ⟨behind, part, ahead, given, middle, rfl, followed, stopped⟩ :=
          inductionHypothesis failed
        refine ⟨.up node :: behind, part, ahead, given, middle, rfl, ?_, stopped⟩
        rw [follow, Run.bind_apply, completed]
        exact followed

/-- How a tour of a program from some state is broken off, being at the end of the tour of a node,
after a part of the tour that lies before that node. -/
structure StopsAt (program : Expr) (start : State) (earlier : List Passage) (node : Expr)
    (failure : Failure) (after : State) : Prop where
  place : ∃ later, program.tour = earlier ++ node.tour ++ later
  span : failure.span = some node.span
  /-- What was visited is all that is listed up to the last node below. -/
  listed : earlier.filterMap Passage.entered? ++ node.preorder <+: program.preorder
  passes : start.Passes after (earlier.filterMap Passage.entered? ++ node.preorder)
    (earlier.filterMap Passage.left? ++ node.children.flatMap postorder)
  /-- It is the node itself that fails, being given the values of its children. -/
  raised : ∃ given middle, follow (earlier ++ node.descent) [] start = .value given middle ∧
    Run.stamped node.span (node.complete (given.take node.children.length).reverse) middle =
      .failure failure after

/-- A tour that fails stops at a node. -/
theorem exists_stopsAt {program : Expr} {start : State} {failure : Failure}
    (failed : follow program.tour [] start = .failure failure after) :
    ∃ earlier node, program.StopsAt start earlier node failure after := by
  obtain ⟨behind, node, ahead, given, middle, split, followed, stopped⟩ := follow_eq_failure failed
  obtain ⟨earlier, rfl⟩ := exists_descent behind ahead split
  have place : program.tour = earlier ++ node.tour ++ ahead := by
    rw [split, tour_eq]
    simp
  have listed : program.preorder = earlier.filterMap Passage.entered? ++ node.preorder ++
      ahead.filterMap Passage.entered? := by
    rw [← entered_tour program, place, List.filterMap_append, List.filterMap_append, entered_tour]
  have way := passes_of_follow followed
  rw [List.filterMap_append, List.filterMap_append, entered_descent, left_descent] at way
  have known := stopped
  rw [Run.stamped_eq] at known
  obtain ⟨inside, last, completes, rfl, rfl⟩ := Run.wrapped_eq_failure known
  obtain ⟨fault, rfl, quiet⟩ := passes_of_complete_fails completes
  refine ⟨earlier, node, ⟨ahead, place⟩, rfl, ⟨_, listed.symm⟩, ?_,
    given, middle, followed, stopped⟩
  have whole := way.trans quiet
  rwa [List.append_nil, List.append_nil] at whole

end Expr

/-- Straight-line code is evaluated in the order of its tree. From every state it comes to an end,
and to the same one whatever the limits and whether or not it is interrupted; it takes no step. An
evaluation with a value has visited the nodes in pre-order, those in function bodies excepted, and
has bound the names of all nodes in post-order. An evaluation that fails has stopped at the end of
the tour of a node, the one that the failure tells: it has visited all that comes before in
pre-order, up to the last node below that one, and has bound the names of the nodes that it has
completed until then, in the order of their completion. Either way the values are those that come
from following the tour. -/
theorem straight_line_code_follows_its_tree {program : Expr} (straight : program.Straight)
    (state : State) :
    let start := { state with steps := 0 }
    ∃ ending enough, (∀ (interpreter : Interpreter) (fuel : Nat), enough ≤ fuel →
        interpreter.evaluate fuel program state = ending) ∧
      match ending with
      | .value value after => start.Passes after program.preorder program.postorder ∧
        Expr.follow program.tour [] start = .value [value] after
      | .failure failure after =>
        ∃ earlier node, program.StopsAt start earlier node failure after
      | .unfinished => False := by
  intro start
  let anyone : Interpreter := .ofLimits .standard
  have toured (interpreter : Interpreter) (fuel : Nat) (enough : sizeOf program ≤ fuel) :
      Expr.follow program.tour [] start =
        (program.eval interpreter fuel >>= fun value => pure [value]) start := by
    rw [← List.append_nil program.tour]
    exact congrFun (Expr.follow_tour straight enough [] []) start
  cases known : program.eval anyone (sizeOf program) start with
  | value value after =>
    have whole : Expr.follow program.tour [] start = .value [value] after := by
      rw [toured anyone _ (Nat.le_refl _), Run.bind_apply, known]
      rfl
    refine ⟨.value value after, sizeOf program, fun interpreter fuel enough => ?_, ?_, whole⟩
    · rw [toured interpreter fuel enough] at whole
      obtain ⟨result, last, evaluated, made⟩ := Run.bind_eq_value whole
      cases made
      exact evaluated
    · have way := Expr.passes_of_follow whole
      rwa [Expr.entered_tour, Expr.left_tour] at way
  | failure failure after =>
    have whole : Expr.follow program.tour [] start = .failure failure after := by
      rw [toured anyone _ (Nat.le_refl _), Run.bind_apply, known]
    refine ⟨.failure failure after, sizeOf program, fun interpreter fuel enough => ?_,
      Expr.exists_stopsAt whole⟩
    rw [toured interpreter fuel enough] at whole
    rcases Run.bind_eq_failure whole with evaluated | ⟨result, last, -, made⟩
    · exact evaluated
    · cases made
  | unfinished => exact absurd known (Expr.eval_finishes straight (Nat.le_refl _) start)

/-- The operands of a sum bind their names although the sum fails, and what comes behind it does
not. -/
theorem operands_are_bound_before_their_sum_fails :
    let number (start : UInt32) : Expr := .number ⟨start, start + 1⟩ (.int 1)
    let sum : Expr := .binary ⟨1, 14⟩ .add (.assign ⟨1, 6⟩ "x" (number 5))
      (.assign ⟨9, 14⟩ "y" (.string ⟨13, 14⟩ "a"))
    let program : Expr := .array ⟨0, 22⟩ [sum, .assign ⟨16, 21⟩ "z" (number 20)]
    let state : State := .initial (.root "main")
    program.Straight ∧ ∃ earlier node failure after,
      program.StopsAt state earlier node failure after ∧ node.span = sum.span := by
  intro number sum program state
  have leaf (start : UInt32) : (number start).Straight :=
    Expr.straight_iff.mpr ⟨rfl, fun _ member => nomatch member⟩
  have text : (Expr.string ⟨13, 14⟩ "a").Straight :=
    Expr.straight_iff.mpr ⟨rfl, fun _ member => nomatch member⟩
  have assign (span : Span) (name : String) {value : Expr} (straight : value.Straight) :
      (Expr.assign span name value).Straight :=
    Expr.straight_iff.mpr ⟨rfl, List.forall_mem_singleton.mpr straight⟩
  have operands : sum.Straight :=
    Expr.straight_iff.mpr ⟨rfl, List.forall_mem_cons.mpr
      ⟨assign _ _ (leaf 5), List.forall_mem_singleton.mpr (assign _ _ text)⟩⟩
  have straight : program.Straight :=
    Expr.straight_iff.mpr ⟨rfl, List.forall_mem_cons.mpr
      ⟨operands, List.forall_mem_singleton.mpr (assign _ _ (leaf 20))⟩⟩
  refine ⟨straight, ?_⟩
  obtain ⟨ending, enough, comes, told⟩ := straight_line_code_follows_its_tree straight state
  have place : ((Interpreter.ofLimits .standard).evaluate 5 program state).place?.map Prod.fst =
      some (some ⟨1, 14⟩) := by decide +kernel
  have same := comes (.ofLimits .standard) (max enough 5) (Nat.le_max_left _ _)
  rcases (Interpreter.ofLimits .standard).evaluate_extends (Nat.le_max_right enough 5) program state
    with stuck | longer
  · rw [stuck] at place
    cases place
  rw [← longer, same] at place
  cases ending with
  | failure failure after =>
    obtain ⟨earlier, node, stops⟩ := told
    refine ⟨earlier, node, failure, after, stops, ?_⟩
    exact Option.some.inj (stops.span.symm.trans (Option.some.inj place))
  | value | unfinished => cases place

end Treewalk

/-
This file proves that a budget of steps makes every evaluation return.

Nothing in a program bounds the work it asks for: a call goes on with a body that was found in a
value, and a loop need not have an end of its own. But no call is made and no loop goes round
without a checkpoint, and a checkpoint that is passed leaves fewer steps in the budget. The measure
is therefore lexicographic: the steps that are left, and then the tree that is evaluated. A node
reaches its children with as many steps as it was itself reached with at least; everything else that
it reaches lies behind a checkpoint.

The count of steps is a machine word that stays at its greatest value, so a budget of that value is
never exceeded: `while 1 do 1` goes on forever on it.
-/
import Treewalk.Proofs.Termination

namespace Treewalk

/-- Whether at most `spare` more steps fit into a budget. -/
def State.Spares (budget spare : Nat) (state : State) : Prop := budget ≤ state.steps + spare

theorem State.Spares.mono {budget spare spare' : Nat} {state : State}
    (spares : state.Spares budget spare) (more : spare ≤ spare') : state.Spares budget spare' := by
  unfold State.Spares at spares ⊢
  omega

namespace Budget

variable (interpreter : Interpreter) {budget spare : Nat}

/-- What is left of a budget does not depend on anything but the count of steps. -/
theorem steady (budget spare : Nat) : Steady (fun _ => True) (State.Spares budget spare) where
  number _ := trivial
  string _ := trivial
  void := trivial
  array _ _ := ⟨fun _ _ _ => trivial, fun _ => trivial⟩
  record _ spares := spares
  newObject spares := spares
  set _ _ _ spares := spares
  get _ _ := trivial

/-- What a run leaves of a budget, whatever its result. -/
abbrev Left {Result : Type} (budget spare : Nat) : Result → State → Prop :=
  fun _ after => after.Spares budget spare

/-- A checkpoint that is passed costs a step. -/
theorem checkpoint_returns (bounded : interpreter.limits.budget = some budget)
    (below : budget < State.maxSteps) {state : State} (spares : state.Spares budget spare) :
    Returns (fun _ after => ∃ less, less < spare ∧ after.Spares budget less)
      (fun _ => interpreter.checkpoint) state := by
  refine Returns.ofMeets ?_
  rw [Interpreter.checkpoint_apply, bounded]
  split
  · trivial
  · dsimp only
    split
    · trivial
    · rename_i within
      have count : state.counted.steps = min (state.steps + 1) State.maxSteps := rfl
      unfold State.Spares at spares
      refine ⟨spare - 1, by omega, ?_⟩
      show budget ≤ state.counted.steps + (spare - 1)
      omega

/-! ### Nodes, given that everything behind a checkpoint returns -/

variable (bounded : interpreter.limits.budget = some budget) (below : budget < State.maxSteps)
  (later : ∀ less, less < spare → ∀ (node : Expr) (state : State), state.Spares budget less →
    Returns (Left budget less) (fun fuel => node.eval interpreter fuel) state)

include bounded below later

theorem callFunction_returns (function : Function) (args : List Value) (span : Span)
    {state : State} (spares : state.Spares budget spare) :
    Returns (Left budget spare)
      (fun fuel => interpreter.callFunction (Expr.eval interpreter fuel) function args span)
      state := by
  refine Returns.callFunction interpreter function args span
    (checkpoint_returns interpreter bounded below spares) fun passed ⟨less, fewer, spares'⟩ _ => ?_
  have bound : Returns (fun _ after => after.Spares budget less)
      (fun _ => Run.assignAll function.params args)
      { passed with context := passed.context.child function.displayName span } :=
    (steady budget less).assignAll function.params (fun _ _ => trivial) spares'
  have body := bound.bind fun _ last spares'' => later less fewer function.body last spares''
  exact body.weaken fun _ last spares'' => State.Spares.mono spares'' (Nat.le_of_lt fewer)

/-- A counting loop, given how its rounds go on. -/
theorem forTurn_returns (name : String) (body : Expr) {level : Nat} (within : level ≤ spare)
    (loop : Range × List Value) {state : State} (spares : state.Spares budget level) :
    Returns (Returns.RoundMeets (fun level _ state => level ≤ spare ∧ state.Spares budget level)
        (Left budget spare) level)
      (fun fuel => Expr.forTurn interpreter (Expr.eval interpreter fuel) name body loop) state := by
  obtain ⟨range, values⟩ := loop
  dsimp only [Expr.forTurn]
  rcases range.next with ⟨_ | current, rest⟩
  · exact Returns.ofMeets (spares.mono within)
  · refine Returns.bind (checkpoint_returns interpreter bounded below spares)
      fun _ after passed => ?_
    obtain ⟨less, fewer, spares'⟩ := passed
    have assigned : Returns (Left budget less)
        (fun _ => Run.assign name (.number current)) after := Returns.ofMeets spares'
    refine assigned.bind fun _ after' spares' =>
      Returns.bind (later less (by omega) body after' spares') fun value last spares'' => ?_
    exact Returns.ofMeets ⟨less, fewer, by omega, spares''⟩

theorem whileTurn_returns (condition body : Expr) {level : Nat} (within : level ≤ spare)
    (values : List Value) {state : State} (spares : state.Spares budget level) :
    Returns (Returns.RoundMeets (fun level _ state => level ≤ spare ∧ state.Spares budget level)
        (Left budget spare) level)
      (fun fuel => Expr.whileTurn interpreter (Expr.eval interpreter fuel) condition body values)
      state := by
  refine Returns.bind (checkpoint_returns interpreter bounded below spares) fun _ after passed => ?_
  obtain ⟨less, fewer, spares'⟩ := passed
  refine Returns.bind (later less (by omega) condition after spares') fun value after' spares' => ?_
  split
  · refine Returns.bind (later less (by omega) body after' spares') fun value last spares'' => ?_
    exact Returns.ofMeets ⟨less, fewer, by omega, spares''⟩
  · exact Returns.ofMeets (State.Spares.mono spares' (by omega))

theorem forRounds_returns (name : String) (body : Expr) (range : Range) {state : State}
    (spares : state.Spares budget spare) :
    Returns (Left budget spare) (fun fuel => Run.iterate
      (Expr.forTurn interpreter (Expr.eval interpreter fuel) name body) fuel (range, [])) state :=
  Returns.iterate (fun level _ state => level ≤ spare ∧ state.Spares budget level)
    (fun _level loop _state ready =>
      forTurn_returns interpreter bounded below later name body ready.1 loop ready.2)
    ⟨Nat.le_refl spare, spares⟩

theorem whileRounds_returns (condition body : Expr) {state : State}
    (spares : state.Spares budget spare) :
    Returns (Left budget spare) (fun fuel => Run.iterate
      (Expr.whileTurn interpreter (Expr.eval interpreter fuel) condition body) fuel []) state :=
  Returns.iterate (fun level _ state => level ≤ spare ∧ state.Spares budget level)
    (fun _level loop _state ready =>
      whileTurn_returns interpreter bounded below later condition body ready.1 loop ready.2)
    ⟨Nat.le_refl spare, spares⟩

/-- A node returns when its children and everything behind a checkpoint do. -/
theorem evaluateNode_returns (node : Expr)
    (nodes : ∀ child ∈ node.children,
      child.Settles interpreter (fun _ => True) (State.Spares budget spare))
    {state : State} (spares : state.Spares budget spare) :
    Returns (fun _ after => True ∧ after.Spares budget spare)
      (fun fuel => Expr.evaluateNode interpreter fuel (Expr.eval interpreter fuel) node) state := by
  refine (steady budget spare).evaluateNode nodes (fun loop state spares => ?_)
    (fun _ _ _ _ _ _ => trivial) (fun function args span state _ _ spares => ?_) spares
  · cases node with
    | forLoop span name start stop step body =>
      refine (steady budget spare).forLoop (fun _ => True)
        (nodes start (by simp [Expr.children])) (nodes stop (by simp [Expr.children]))
        (fun _ => trivial)
        (fun child same => nodes child (by simp [Expr.children, same]))
        (fun _ _ _ range _ _ _ _ state spares => ?_) spares
      exact (forRounds_returns interpreter bounded below later name body range spares).weaken
        fun _ _ spares => ⟨fun _ _ => trivial, spares⟩
    | whileLoop span condition body =>
      exact (steady budget spare).finish (fun values => .whileFinished values.length)
        ((whileRounds_returns interpreter bounded below later condition body spares).weaken
          fun _ _ spares => ⟨fun _ _ => trivial, spares⟩)
    | _ => cases loop
  · exact (callFunction_returns interpreter bounded below later function args span spares).weaken
      fun _ _ spares => ⟨trivial, spares⟩

omit later in
/-- Every node returns, and with no more steps left than it started with. The first induction is on
the steps that are left, the second one on the tree. -/
theorem eval_returns (node : Expr) {state : State} (spares : state.Spares budget spare) :
    Returns (Left budget spare) (fun fuel => node.eval interpreter fuel) state := by
  induction spare using Nat.strongRecOn generalizing node state with
  | _ spare later =>
    have settled : node.Settles interpreter (fun _ => True) (State.Spares budget spare) := by
      induction node using Expr.childInduction with
      | step node nodes =>
        exact (steady budget spare).settles fun state spares =>
          evaluateNode_returns interpreter bounded below
            (fun less fewer node state => later less fewer node) node nodes spares
    exact (settled state spares).weaken fun _ _ given => given.2

end Budget

/-- On any budget that is not the greatest machine word, and whether or not the host has asked for
it to stop, every program returns from every context, and so does every call of a function by a
host: there is an end, a value or a failure, to which it comes on all fuel from some amount on. -/
theorem evaluation_returns_on_budget (maxDepth budget : Nat) (below : budget < State.maxSteps)
    (interrupted : Bool) (state : State) :
    (∀ program : Expr, ∃ ending, ending ≠ .unfinished ∧ ∃ enough, ∀ fuel, enough ≤ fuel →
      Interpreter.evaluate ⟨.bounded maxDepth budget, interrupted⟩ fuel program state = ending) ∧
    (∀ (function : Function) (args : List Value) (span : Span),
      ∃ ending, ending ≠ .unfinished ∧ ∃ enough, ∀ fuel, enough ≤ fuel →
        Interpreter.execute ⟨.bounded maxDepth budget, interrupted⟩ fuel function args span state =
          ending) := by
  have spares : State.Spares budget budget { state with steps := 0 } := Nat.le_add_left budget 0
  constructor
  · intro program
    exact (Budget.eval_returns _ rfl below program spares).ends
  · intro function args span
    exact (Budget.callFunction_returns _ rfl below
      (fun less _ node state => Budget.eval_returns _ rfl below node) function args span
      spares).ends

/-- A loop without an end of its own returns on a budget of three steps. -/
theorem endless_loop_returns : 3 < State.maxSteps ∧
    ∃ ending, ending ≠ .unfinished ∧ ∃ enough, ∀ fuel, enough ≤ fuel →
      Interpreter.evaluate ⟨.bounded 8 3, false⟩ fuel
        (.whileLoop ⟨0, 14⟩ (.number ⟨6, 7⟩ (.int 1)) (.number ⟨13, 14⟩ (.int 1)))
        (.initial (.root Context.programName)) = ending :=
  ⟨by decide, (evaluation_returns_on_budget 8 3 (by decide) false
    (.initial (.root Context.programName))).1 _⟩

end Treewalk

/-
Fuel does not decide what an evaluation comes to. A run that comes to its end on some fuel comes to
the same end on any more (`eval_extends`), so two ends of one program are one (`eval_unique`).

One run extends another when it comes to the same end wherever the other comes to one. This is a
comparison of an interpreter with itself.
-/
import Treewalk.Proofs.Comparison

namespace Treewalk

/-! ### Runs that extend runs -/

namespace Run

variable {Result Other : Type}

/-- Whether a run comes to the same end as another one wherever that comes to one. -/
def Extends (more less : Run Result) : Prop :=
  ∀ state, less state = .unfinished ∨ more state = less state

theorem Extends.refl (run : Run Result) : Extends run run := fun _ => .inr rfl

theorem extends_unfinished (run : Run Result) : Extends run unfinished := fun _ => .inl rfl

theorem Extends.bind {more less : Run Result} {next next' : Result → Run Other}
    (first : Extends more less) (second : ∀ result, Extends (next result) (next' result)) :
    Extends (more >>= next) (less >>= next') := by
  intro state
  rw [bind_apply, bind_apply]
  rcases first state with stuck | same
  · rw [stuck]
    exact .inl rfl
  · rw [same]
    cases less state with
    | value result after => exact second result after
    | failure failure after => exact .inr rfl
    | unfinished => exact .inr rfl

theorem Extends.wrapped {more less : Run Result} (inner : Extends more less)
    (start : State → State) (mark : State → Failure → Failure) (finish : State → State → State) :
    Extends (Run.wrapped start mark finish more) (Run.wrapped start mark finish less) := by
  intro state
  rw [wrapped_apply, wrapped_apply]
  rcases inner (start state) with stuck | same
  · rw [stuck]
    exact .inl rfl
  · rw [same]
    exact .inr rfl

theorem Extends.descend {more less : Run Result} (inner : Extends more less)
    (interpreter : Interpreter) :
    Extends (interpreter.descend more) (interpreter.descend less) := by
  refine .bind (.refl _) fun context => ?_
  split
  · exact .refl _
  · exact inner

end Run

/-- An interpreter compared with itself on more fuel. -/
def Comparison.fuel (interpreter : Interpreter) : Comparison interpreter interpreter where
  related := Run.Extends
  starve _ := Run.extends_unfinished _
  unfinished := .refl _
  done _ := .refl _
  next := .bind
  raise _ _ := .refl _
  record _ := .refl _
  enter _ := .refl _
  lookup _ := .refl _
  assign _ _ := .refl _
  newObject := .refl _
  checkpoint := .refl _
  descend inner := inner.descend interpreter
  stamped _ inner := inner.wrapped _ _ _
  between _ _ inner := inner.wrapped _ _ _
  inFrame _ _ inner := inner.wrapped _ _ _

/-! ### Evaluation -/

open Run (Extends)

/-- More fuel changes no evaluation that came to its end. -/
theorem Expr.eval_extends (interpreter : Interpreter) {fuel fuel' : Nat} (enough : fuel' ≤ fuel)
    (node : Expr) :
    Extends (eval interpreter fuel node) (eval interpreter fuel' node) :=
  (Comparison.fuel interpreter).eval enough node

/-- Whatever the fuel, an evaluation comes to one end only. -/
theorem Expr.eval_unique (interpreter : Interpreter) {fuel fuel' : Nat} {node : Expr}
    {state : State} (finished : eval interpreter fuel node state ≠ .unfinished)
    (finished' : eval interpreter fuel' node state ≠ .unfinished) :
    eval interpreter fuel node state = eval interpreter fuel' node state := by
  rcases Nat.le_total fuel' fuel with enough | enough
  · exact (eval_extends interpreter enough node state).resolve_left finished'
  · exact ((eval_extends interpreter enough node state).resolve_left finished).symm

namespace Interpreter

/-- More fuel changes no program that came to its end. -/
theorem evaluate_extends (interpreter : Interpreter) {fuel fuel' : Nat} (enough : fuel' ≤ fuel)
    (program : Expr) :
    Extends (interpreter.evaluate fuel program) (interpreter.evaluate fuel' program) :=
  .bind (.refl _) fun _ => program.eval_extends interpreter enough

end Interpreter

end Treewalk

/-
What the parameters of a call are bound to. Names are bound to values one after the other, so that
of two names that are the same the last one counts; a name that is not among them keeps what it was
bound to before.
-/
import Treewalk.Evaluation.Run

namespace Treewalk

namespace Context

/-- Binds names to values in the current frame, in order, as far as there are both. -/
def setAll (context : Context) : List String → List Value → Context
  | name :: names, value :: values => (context.set name value).setAll names values
  | _, _ => context

/-- Only the scope of the current frame changes. -/
theorem exists_setAll_eq (context : Context) (names : List String) (values : List Value) :
    ∃ scope, context.setAll names values = ⟨{ context.frame with scope }, context.callers⟩ := by
  induction names generalizing context values with
  | nil => exact ⟨context.frame.scope, rfl⟩
  | cons name names inductionHypothesis =>
    cases values with
    | nil => exact ⟨context.frame.scope, rfl⟩
    | cons value values => exact inductionHypothesis (context.set name value) values

@[simp] theorem callers_setAll (context : Context) (names : List String) (values : List Value) :
    (context.setAll names values).callers = context.callers := by
  obtain ⟨scope, same⟩ := exists_setAll_eq context names values
  rw [same]

@[simp] theorem name_setAll (context : Context) (names : List String) (values : List Value) :
    (context.setAll names values).frame.name = context.frame.name := by
  obtain ⟨scope, same⟩ := exists_setAll_eq context names values
  rw [same]

@[simp] theorem entry_setAll (context : Context) (names : List String) (values : List Value) :
    (context.setAll names values).frame.entry = context.frame.entry := by
  obtain ⟨scope, same⟩ := exists_setAll_eq context names values
  rw [same]

/-- The value of a name is the one that stands last beside it. -/
theorem get?_setAll (context : Context) (names : List String) (values : List Value)
    (name : String) :
    (context.setAll names values).get? name =
      ((names.zip values).reverse.lookup name).or (context.get? name) := by
  induction names generalizing context values with
  | nil => rfl
  | cons first names inductionHypothesis =>
    cases values with
    | nil => rfl
    | cons value values =>
      have head : (context.set first value).get? name =
          (List.lookup name [(first, value)]).or (context.get? name) := by
        by_cases same : name = first
        · subst same
          rw [get?_set_self, List.lookup_cons_self]
          rfl
        · rw [get?_set_of_ne context same, List.lookup_cons, beq_false_of_ne same]
          rfl
      rw [setAll, inductionHypothesis, head, List.zip_cons_cons, List.reverse_cons,
        List.lookup_append, Option.or_assoc]

end Context

/-- Binding the parameters of a call always succeeds, and touches nothing but the current scope and
the journal. -/
theorem Run.assignAll_apply (names : List String) (values : List Value) (state : State) :
    ∃ journal, Run.assignAll names values state =
      .value () { state with context := state.context.setAll names values, journal } := by
  induction names generalizing values state with
  | nil => exact ⟨state.journal, rfl⟩
  | cons name names inductionHypothesis =>
    cases values with
    | nil => exact ⟨state.journal, rfl⟩
    | cons value values => exact inductionHypothesis values _

end Treewalk

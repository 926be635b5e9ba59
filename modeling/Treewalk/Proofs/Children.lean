/-
The nodes below a node: those that are evaluated in the same frame as the node itself. The body of
a definition is not one of them, since it is evaluated in the frame of a call. Whatever holds of a
node when it holds of its children holds of every node (`Expr.childInduction`). What a node itself
does in that frame is to read or bind a name.
-/
import Treewalk.Expr

namespace Treewalk.Expr

/-- The nodes that the evaluation of a node may evaluate in the same frame, from left to right. -/
def children : Expr → List Expr
  | number .. | string .. | lookup .. | define .. => []
  | array _ items => items
  | assign _ _ value => [value]
  | binary _ _ left right => [left, right]
  | unary _ _ operand => [operand]
  | conditional _ cases otherwise =>
    cases.flatMap (fun case => [case.1, case.2]) ++ otherwise.toList
  | forLoop _ _ start stop step body => start :: stop :: (step.toList ++ [body])
  | whileLoop _ condition body => [condition, body]
  | call _ callee args => callee :: args

/-- The name that a node binds when it is evaluated. -/
def target? : Expr → Option String
  | assign _ name _ | forLoop _ name .. => some name
  | define _ name .. => name
  | _ => none

/-- The name that a node looks up or binds when it is evaluated. -/
def name? : Expr → Option String
  | lookup _ name => some name
  | node => node.target?

theorem sizeOf_lt_of_mem_cases {cases : List (Expr × Expr)} {case : Expr × Expr}
    (member : case ∈ cases) :
    sizeOf case.1 < sizeOf cases ∧ sizeOf case.2 < sizeOf cases := by
  have smaller := List.sizeOf_lt_of_mem member
  have parts : sizeOf case = 1 + sizeOf case.1 + sizeOf case.2 := by
    obtain ⟨condition, body⟩ := case
    rfl
  omega

theorem sizeOf_lt_of_mem_toList {node : Option Expr} {child : Expr}
    (member : child ∈ node.toList) : sizeOf child < sizeOf node := by
  cases node with
  | none => cases member
  | some other =>
    rw [Option.toList_some, List.mem_singleton] at member
    subst member
    simp

/-- A child is smaller than its parent. -/
theorem sizeOf_lt_of_mem_children {node child : Expr} (member : child ∈ node.children) :
    sizeOf child < sizeOf node := by
  cases node with
  | number | string | lookup | define => cases member
  | array span items =>
    have smaller : sizeOf child < sizeOf items := List.sizeOf_lt_of_mem member
    simp only [array.sizeOf_spec]
    omega
  | assign span name value =>
    rw [children, List.mem_singleton] at member
    subst member
    simp only [assign.sizeOf_spec]
    omega
  | binary span op left right =>
    simp only [binary.sizeOf_spec]
    simp only [children, List.mem_cons, List.not_mem_nil, or_false] at member
    rcases member with rfl | rfl <;> omega
  | unary span op operand =>
    rw [children, List.mem_singleton] at member
    subst member
    simp only [unary.sizeOf_spec]
    omega
  | conditional span cases otherwise =>
    simp only [conditional.sizeOf_spec]
    rcases List.mem_append.mp member with inCase | inOtherwise
    · obtain ⟨case, caseMember, part⟩ := List.mem_flatMap.mp inCase
      have smaller := sizeOf_lt_of_mem_cases caseMember
      simp only [List.mem_cons, List.not_mem_nil, or_false] at part
      rcases part with rfl | rfl <;> omega
    · have smaller := sizeOf_lt_of_mem_toList inOtherwise
      omega
  | forLoop span name start stop step body =>
    simp only [forLoop.sizeOf_spec]
    simp only [children, List.mem_cons, List.mem_append, List.not_mem_nil, or_false] at member
    rcases member with rfl | rfl | inStep | rfl
    · omega
    · omega
    · have smaller := sizeOf_lt_of_mem_toList inStep
      omega
    · omega
  | whileLoop span condition body =>
    simp only [whileLoop.sizeOf_spec]
    simp only [children, List.mem_cons, List.not_mem_nil, or_false] at member
    rcases member with rfl | rfl <;> omega
  | call span callee args =>
    simp only [call.sizeOf_spec]
    rcases List.mem_cons.mp member with rfl | inArgs
    · omega
    · have smaller := List.sizeOf_lt_of_mem inArgs
      omega

/-- Induction on a tree, from the children of a node to the node. -/
theorem childInduction {motive : Expr → Prop}
    (step : ∀ node, (∀ child ∈ node.children, motive child) → motive node) (node : Expr) :
    motive node :=
  step node fun child _member => childInduction step child
termination_by sizeOf node
decreasing_by exact sizeOf_lt_of_mem_children _member

end Treewalk.Expr

/-
What programs and values are to those who do not look at positions: trees in which every span is
blanked out, in the bodies of functions too.

Two programs that were read from different texts differ in the sites of their definitions as well,
and those of one text do not. How much is to be seen of a site is left open here: `sites` says what
is put in its place. The identity keeps them, and a constant forgets them.

What the operators, the bounds of ranges and the conditions make of two values is the same for all
values that differ in spans alone. It follows from what they make of trees, since there is no span
in a tree but in a function, and no operator looks into one.
-/
import Treewalk.Proofs.Tree

namespace Treewalk

/-! ### Programs -/

namespace Expr

mutual

/-- A program with its spans blanked out. -/
def blank (sites : Nat → Nat) : Expr → Expr
  | number _ value => number .nowhere value
  | string _ value => string .nowhere value
  | array _ items => array .nowhere (blankAll sites items)
  | lookup _ name => lookup .nowhere name
  | assign _ name value => assign .nowhere name (blank sites value)
  | binary _ op left right => binary .nowhere op (blank sites left) (blank sites right)
  | unary _ op operand => unary .nowhere op (blank sites operand)
  | conditional _ cases otherwise =>
    conditional .nowhere (blankCases sites cases) (blankOptional sites otherwise)
  | forLoop _ name start stop step body =>
    forLoop .nowhere name (blank sites start) (blank sites stop) (blankOptional sites step)
      (blank sites body)
  | whileLoop _ condition body => whileLoop .nowhere (blank sites condition) (blank sites body)
  | define _ name params site body => define .nowhere name params (sites site) (blank sites body)
  | call _ callee args => call .nowhere (blank sites callee) (blankAll sites args)

/-- Some programs with their spans blanked out. -/
def blankAll (sites : Nat → Nat) : List Expr → List Expr
  | [] => []
  | item :: rest => blank sites item :: blankAll sites rest

/-- Cases with their spans blanked out, in conditions and bodies. -/
def blankCases (sites : Nat → Nat) : List (Expr × Expr) → List (Expr × Expr)
  | [] => []
  | (condition, body) :: rest => (blank sites condition, blank sites body) :: blankCases sites rest

/-- A program that may be absent, with its spans blanked out. -/
def blankOptional (sites : Nat → Nat) : Option Expr → Option Expr
  | none => none
  | some node => some (blank sites node)

end

theorem blankAll_eq_map (sites : Nat → Nat) (items : List Expr) :
    blankAll sites items = items.map (blank sites) := by
  induction items with
  | nil => rfl
  | cons item rest inductionHypothesis =>
    rw [blankAll, inductionHypothesis]
    rfl

theorem blankCases_eq_map (sites : Nat → Nat) (cases : List (Expr × Expr)) :
    blankCases sites cases = cases.map (Prod.map (blank sites) (blank sites)) := by
  induction cases with
  | nil => rfl
  | cons head rest inductionHypothesis =>
    rw [blankCases, inductionHypothesis]
    rfl

theorem blankOptional_eq_map (sites : Nat → Nat) (node : Option Expr) :
    blankOptional sites node = node.map (blank sites) := by
  cases node <;> rfl

end Expr

/-! ### Values -/

/-- A function with the spans of its body blanked out. -/
def Function.blank (sites : Nat → Nat) (function : Function) : Function :=
  ⟨function.name, function.params, sites function.site, function.body.blank sites⟩

namespace Tree

mutual

/-- A tree with the spans of its functions blanked out. -/
def blank (sites : Nat → Nat) : Tree → Tree
  | number value => number value
  | string value => string value
  | array items => array (blankAll sites items)
  | function value => function (value.blank sites)
  | void => void

/-- Some trees with the spans of their functions blanked out. -/
def blankAll (sites : Nat → Nat) : List Tree → List Tree
  | [] => []
  | item :: rest => blank sites item :: blankAll sites rest

end

@[simp] theorem blankAll_eq_map (sites : Nat → Nat) (items : List Tree) :
    blankAll sites items = items.map (blank sites) := by
  induction items with
  | nil => rfl
  | cons item rest inductionHypothesis =>
    rw [blankAll, inductionHypothesis]
    rfl

variable (sites : Nat → Nat)

theorem blank_array (items : List Tree) :
    (array items).blank sites = array (items.map (blank sites)) := by
  rw [blank, blankAll_eq_map]

@[simp] theorem typeName_blank (tree : Tree) : (tree.blank sites).typeName = tree.typeName := by
  cases tree <;> rfl

@[simp] theorem isTruthy_blank (tree : Tree) : (tree.blank sites).isTruthy = tree.isTruthy := by
  cases tree with
  | array items =>
    rw [blank_array]
    cases items <;> rfl
  | number | string | function | void => rfl

end Tree

section

variable (sites : Nat → Nat)

theorem BinaryOperator.ofTrees_blank (op : BinaryOperator) (left right : Tree) :
    op.ofTrees (left.blank sites) (right.blank sites) =
      (op.ofTrees left right).map (Tree.blank sites) := by
  cases left with
  | array items =>
    rw [Tree.blank_array]
    cases op with
    | append =>
      show Except.ok _ = Except.ok _
      rw [Tree.blank_array, List.map_append]
      rfl
    | _ => rfl
  | number left =>
    cases right with
    | number right =>
      show (Number.apply op left right).map .number =
        ((Number.apply op left right).map .number).map (Tree.blank sites)
      cases Number.apply op left right <;> rfl
    | string | array | function | void => rfl
  | string left =>
    cases right with
    | string right => cases op <;> rfl
    | number | array | function | void => rfl
  | function | void => cases right <;> rfl

theorem UnaryOperator.ofTree_blank (op : UnaryOperator) (operand : Tree) :
    op.ofTree (operand.blank sites) = (op.ofTree operand).map (Tree.blank sites) := by
  cases op with
  | negate =>
    cases operand with
    | number operand =>
      show operand.negate.map .number = (operand.negate.map .number).map (Tree.blank sites)
      cases operand.negate <;> rfl
    | string | array | function | void => rfl
  | not => cases operand <;> rfl

theorem Range.ofTrees_blank (start stop : Tree) (step : Option Tree) :
    ofTrees (start.blank sites) (stop.blank sites) (step.map (Tree.blank sites)) =
      ofTrees start stop step := by
  have given : (step.map (Tree.blank sites)).getD (.number (.int 1)) =
      (step.getD (.number (.int 1))).blank sites := by cases step <;> rfl
  unfold ofTrees
  rw [given]
  generalize step.getD (.number (.int 1)) = step
  rcases start with ⟨_ | _⟩ | _ | _ | _ | _ <;> rcases stop with ⟨_ | _⟩ | _ | _ | _ | _ <;>
    rcases step with ⟨_ | _⟩ | _ | _ | _ | _ <;> rfl

end

namespace Value

variable (sites : Nat → Nat)

/-- A value as a tree, with the spans of its functions blanked out. -/
def blank (value : Value) : Tree := value.tree.blank sites

theorem blank_ofItems (object : Nat) (items : List Value) :
    (ofItems object items).blank sites = .array (items.map (blank sites)) := by
  rw [blank, tree_ofItems, Tree.blank_array, List.map_map]
  rfl

theorem isTruthy_blank (value : Value) : (value.blank sites).isTruthy = value.isTruthy := by
  rw [blank, Tree.isTruthy_blank, isTruthy_tree]

theorem typeName_blank (value : Value) : (value.blank sites).typeName = value.typeName := by
  rw [blank, Tree.typeName_blank, typeName_tree]

end Value

section

variable (sites : Nat → Nat)

theorem BinaryOperator.apply_blank (op : BinaryOperator) (object : Nat) (left right : Value) :
    (op.apply object left right).map (Value.blank sites) =
      op.ofTrees (left.blank sites) (right.blank sites) := by
  rw [Value.blank, Value.blank, ofTrees_blank, ofTrees_tree op object]
  cases op.apply object left right <;> rfl

theorem UnaryOperator.apply_blank (op : UnaryOperator) (operand : Value) :
    (op.apply operand).map (Value.blank sites) = op.ofTree (operand.blank sites) := by
  rw [Value.blank, ofTree_blank, ofTree_tree]
  cases op.apply operand <;> rfl

theorem Range.ofBounds_blank (start stop : Value) (step : Option Value) :
    ofTrees (start.blank sites) (stop.blank sites) (step.map (Value.blank sites)) =
      ofBounds start stop step := by
  have mapped : step.map (Value.blank sites) = (step.map Value.tree).map (Tree.blank sites) :=
    (Option.map_map _ _ step).symm
  rw [mapped, Value.blank, Value.blank, ofTrees_blank, ofTrees_tree]

end

end Treewalk

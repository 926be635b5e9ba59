/-
What values are to those who do not look at handles: trees, in which every array simply has its
items. Two values with the same tree may share their array objects in different ways, with each
other, with other values and within themselves; nothing that a program can do tells them apart.

The operators, the bounds of ranges and the conditions of the language are all functions of trees
alone, and so is what an append along a path of indexes is meant to do (`Tree.appendAt`).
-/
import Treewalk.Apply
import Treewalk.Object
import Treewalk.Range

namespace Treewalk

/-- What a value is apart from which array objects it shares. The items of an array stand in order,
the earliest first. -/
inductive Tree
  | number (value : Number)
  | string (value : String)
  | array (items : List Tree)
  | function (value : Function)
  | void

namespace Value

mutual

/-- A value as a tree. -/
def tree : Value → Tree
  | number value => .number value
  | string value => .string value
  | array _ latest => .array (trees latest).reverse
  | function value => .function value
  | void => .void

/-- Some values as trees. -/
def trees : List Value → List Tree
  | [] => []
  | item :: rest => item.tree :: trees rest

end

/-- Induction on a value, from the items of an array to the array. -/
theorem itemInduction {motive : Value → Prop}
    (array : ∀ object latest, (∀ item ∈ latest, motive item) → motive (.array object latest))
    (number : ∀ value, motive (.number value)) (string : ∀ value, motive (.string value))
    (function : ∀ value, motive (.function value)) (void : motive .void) (value : Value) :
    motive value :=
  match value with
  | .array object latest =>
    array object latest fun item _member => itemInduction array number string function void item
  | .number value => number value
  | .string value => string value
  | .function value => function value
  | .void => void
termination_by sizeOf value
decreasing_by
  have smaller := List.sizeOf_lt_of_mem _member
  simp only [Value.array.sizeOf_spec]
  omega

@[simp] theorem trees_eq_map (values : List Value) : trees values = values.map tree := by
  induction values with
  | nil => rfl
  | cons value rest inductionHypothesis =>
    rw [trees, inductionHypothesis]
    rfl

theorem tree_array (object : Nat) (latest : List Value) :
    (array object latest).tree = .array (latest.reverse.map tree) := by
  rw [tree, trees_eq_map, List.map_reverse]

@[simp] theorem tree_ofItems (object : Nat) (items : List Value) :
    (ofItems object items).tree = .array (items.map tree) := by
  rw [ofItems, tree_array, List.reverse_reverse]

theorem tree_array_cons (object : Nat) (item : Value) (latest : List Value) :
    (array object (item :: latest)).tree = .array (latest.reverse.map tree ++ [item.tree]) := by
  rw [tree_array, List.reverse_cons, List.map_append]
  rfl

theorem tree_array_withItemAt (object : Nat) (latest : List Value) (index : Nat) (item : Value) :
    (array object (withItemAt latest index item)).tree =
      .array ((latest.reverse.map tree).set index item.tree) := by
  rw [tree_array, withItemAt, List.reverse_reverse, List.map_set]

end Value

/-! ### What the language makes of trees -/

namespace Tree

/-- The name of the tree's type in messages. -/
def typeName : Tree → String
  | number value => value.typeName
  | string _ => "string"
  | array _ => "array"
  | function _ => "function"
  | void => "void"

/-- Whether the tree counts as true in a condition. -/
def isTruthy : Tree → Bool
  | number value => !value.isZero
  | string value => !value.isEmpty
  | array items => !items.isEmpty
  | function _ => true
  | void => false

/-- The tree as a float, if it is a number. -/
def toFloat? : Tree → Option Float
  | number value => some value.toFloat
  | _ => none

end Tree

/-- What an operator makes of two trees. -/
def BinaryOperator.ofTrees (op : BinaryOperator) (left right : Tree) : Except Fault Tree :=
  match left, right with
  | .array items, item =>
    match op with
    | .append => .ok (.array (items ++ [item]))
    | _ => .error (.invalidBinary "array" op)
  | .number left, .number right => (Number.apply op left right).map .number
  | .string left, .string right => (applyStrings op left right).map Value.tree
  | left, right => .error (.typeMismatch left.typeName right.typeName op)

/-- What an operator makes of one tree. -/
def UnaryOperator.ofTree (op : UnaryOperator) (operand : Tree) : Except Fault Tree :=
  match op, operand with
  | .negate, .number operand => operand.negate.map .number
  | .not, .number operand => .ok (.number (.ofBool operand.isZero))
  | _, operand => .error (.invalidUnary operand.typeName op)

namespace Range

/-- A bound as a float, or the fault that it is not a number. -/
def realBoundOfTree (bound : String) (tree : Tree) : Except Fault Float :=
  match tree.toFloat? with
  | some real => .ok real
  | none => .error (.boundNotNumber bound tree.typeName)

/-- The range with bounds that are given as trees. -/
def ofTrees (start stop : Tree) (step : Option Tree) : Except Fault Range :=
  match start, stop, step.getD (.number (.int 1)) with
  | .number (.int start), .number (.int stop), .number (.int step) =>
    .ok (int (some start) stop step)
  | start, stop, step =>
    match realBoundOfTree "start" start, realBoundOfTree "end" stop,
      realBoundOfTree "step" step with
    | .ok start, .ok stop, .ok step => .ok (float start stop step)
    | .error fault, _, _ => .error fault
    | _, .error fault, _ => .error fault
    | _, _, .error fault => .error fault

end Range

@[simp] theorem Value.isTruthy_tree (value : Value) : value.tree.isTruthy = value.isTruthy := by
  cases value with
  | array object latest =>
    rw [tree_array]
    cases latest <;> simp [Tree.isTruthy, isTruthy]
  | number | string | function | void => rfl

@[simp] theorem Value.typeName_tree (value : Value) : value.tree.typeName = value.typeName := by
  cases value <;> rfl

theorem BinaryOperator.ofTrees_tree (op : BinaryOperator) (object : Nat) (left right : Value) :
    op.ofTrees left.tree right.tree = (op.apply object left right).map Value.tree := by
  cases left with
  | array object' latest =>
    cases op with
    | append =>
      show Except.ok _ = Except.ok _
      rw [Value.tree_array_cons, Value.trees_eq_map, List.map_reverse]
    | _ => rfl
  | number left =>
    cases right with
    | number right =>
      show (Number.apply op left right).map .number =
        ((Number.apply op left right).map .number).map Value.tree
      cases Number.apply op left right <;> rfl
    | string | array | function | void => rfl
  | string | function | void => cases right <;> rfl

theorem UnaryOperator.ofTree_tree (op : UnaryOperator) (operand : Value) :
    op.ofTree operand.tree = (op.apply operand).map Value.tree := by
  cases op with
  | negate =>
    cases operand with
    | number operand =>
      show operand.negate.map .number = (operand.negate.map .number).map Value.tree
      cases operand.negate <;> rfl
    | string | array | function | void => rfl
  | not => cases operand <;> rfl

theorem Range.ofTrees_tree (start stop : Value) (step : Option Value) :
    ofTrees start.tree stop.tree (step.map Value.tree) = ofBounds start stop step := by
  unfold ofTrees ofBounds
  have stepTree : (step.map Value.tree).getD (.number (.int 1)) =
      (step.getD (.int 1)).tree := by cases step <;> rfl
  rw [stepTree]
  generalize step.getD (.int 1) = step
  rcases start with ⟨_ | _⟩ | _ | _ | _ | _ <;> rcases stop with ⟨_ | _⟩ | _ | _ | _ | _ <;>
    rcases step with ⟨_ | _⟩ | _ | _ | _ | _ <;> rfl

/-! ### Appending along a path -/

namespace Tree

/-- The tree that is reached along a path of indexes. -/
def at? : List Nat → Tree → Option Tree
  | [], tree => some tree
  | index :: rest, array items => items[index]?.bind (at? rest)
  | _ :: _, _ => none

/-- The tree with an item appended to the array that is reached along a path of indexes. -/
def appendAt (tree : Tree) (path : List Nat) (item : Tree) : Except Refusal Tree :=
  match path, tree with
  | [], array items => .ok (array (items ++ [item]))
  | index :: rest, array items =>
    match items[index]? with
    | none => .error .pastEnd
    | some inner => (inner.appendAt rest item).map fun inner => array (items.set index inner)
  | _, _ => .error .notArray
termination_by structural path

/-- An append along a path that goes on needs an array with an item at the first index, and appends
to that item along the rest of the path. -/
theorem appendAt_cons_eq_ok {item tree tree' : Tree} {index : Nat} {rest : List Nat}
    (appended : tree.appendAt (index :: rest) item = .ok tree') :
    ∃ items inner inner', tree = array items ∧ items[index]? = some inner ∧
      inner.appendAt rest item = .ok inner' ∧ tree' = array (items.set index inner') := by
  cases tree with
  | array items =>
    rw [appendAt] at appended
    cases reached : items[index]? with
    | none =>
      rw [reached] at appended
      cases appended
    | some inner =>
      rw [reached] at appended
      cases below : inner.appendAt rest item with
      | error refusal =>
        simp [below, Except.map] at appended
      | ok inner' =>
        simp only [below, Except.map, Except.ok.injEq] at appended
        exact ⟨items, inner, inner', rfl, reached, below, appended.symm⟩
  | number | string | function | void => cases appended

/-- An append along a path that leads to an array does not fail. -/
theorem appendAt_eq_ok_of_at? {tree : Tree} {path : List Nat} {items : List Tree}
    (reached : tree.at? path = some (array items)) (item : Tree) :
    ∃ tree', tree.appendAt path item = .ok tree' := by
  induction path generalizing tree with
  | nil =>
    cases reached
    exact ⟨_, rfl⟩
  | cons index rest inductionHypothesis =>
    cases tree with
    | array others =>
      obtain ⟨inner, found, below⟩ := Option.bind_eq_some_iff.mp reached
      obtain ⟨inner', appended⟩ := inductionHypothesis below
      rw [appendAt, found]
      dsimp only
      rw [appended]
      exact ⟨_, rfl⟩
    | number | string | function | void => cases reached

/-- At the end of the path stands an array, and it gets the item. -/
theorem at?_appendAt_self {item tree tree' : Tree} {path : List Nat}
    (appended : tree.appendAt path item = .ok tree') :
    ∃ items, tree.at? path = some (array items) ∧
      tree'.at? path = some (array (items ++ [item])) := by
  induction path generalizing tree tree' with
  | nil =>
    cases tree with
    | array items =>
      cases appended
      exact ⟨items, rfl, rfl⟩
    | number | string | function | void => cases appended
  | cons index rest inductionHypothesis =>
    obtain ⟨items, inner, inner', rfl, reached, below, rfl⟩ := appendAt_cons_eq_ok appended
    obtain ⟨found, before, after⟩ := inductionHypothesis below
    have inside : index < items.length := (List.getElem?_eq_some_iff.mp reached).1
    refine ⟨found, ?_, ?_⟩
    · rw [at?, reached]
      exact before
    · rw [at?, List.getElem?_set_self inside]
      exact after

/-- Beside the way to that array everything is as it was. -/
theorem at?_appendAt_of_apart {item tree tree' : Tree} {path other : List Nat}
    (appended : tree.appendAt path item = .ok tree') (above : ¬ other <+: path)
    (below : ¬ path <+: other) : tree'.at? other = tree.at? other := by
  induction path generalizing tree tree' other with
  | nil => exact absurd List.nil_prefix below
  | cons index rest inductionHypothesis =>
    obtain ⟨items, inner, inner', rfl, reached, inside, rfl⟩ := appendAt_cons_eq_ok appended
    cases other with
    | nil => exact absurd List.nil_prefix above
    | cons first others =>
      rw [at?, at?]
      by_cases same : index = first
      · subst same
        have bound : index < items.length := (List.getElem?_eq_some_iff.mp reached).1
        rw [List.getElem?_set_self bound, reached]
        exact inductionHypothesis inside
          (fun within => above (List.cons_prefix_cons.mpr ⟨rfl, within⟩))
          fun within => below (List.cons_prefix_cons.mpr ⟨rfl, within⟩)
      · rw [List.getElem?_set_ne same]

end Tree

end Treewalk

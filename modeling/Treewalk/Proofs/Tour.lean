/-
The tour of a tree: down into a node, around each of its children from left to right, and up out of
the node again.

The nodes in the order in which a tour goes down into them are the nodes in pre-order, and in the
order in which it comes up out of them they are in post-order. Wherever a tour comes up out of a
node, what lies behind it ends with the descent into that node, which is the tour of everything
below it (`exists_descent`). So a tour that is broken off there has entered the nodes up to the last
one below that node, and has left all of them but that node and those above it.
-/
import Mathlib.Data.List.Basic
import Treewalk.Proofs.Children

namespace Treewalk

/-- A point of a tour. -/
inductive Passage
  /-- Down into a node. -/
  | down (node : Expr)
  /-- Up out of a node. -/
  | up (node : Expr)

namespace Passage

/-- The node that is entered. -/
def entered? : Passage → Option Expr
  | down node => some node
  | up _ => none

/-- The node that is left. -/
def left? : Passage → Option Expr
  | down _ => none
  | up node => some node

end Passage

namespace Expr

variable {Item : Type}

/-- Puts a list together along a tree: what there is of the children, from left to right, is wrapped
in what there is of the node. -/
def gather (wrap : Expr → List Item → List Item) (node : Expr) : List Item :=
  wrap node (node.children.attach.flatMap fun child => gather wrap child.1)
termination_by sizeOf node
decreasing_by exact sizeOf_lt_of_mem_children child.2

theorem gather_eq (wrap : Expr → List Item → List Item) (node : Expr) :
    gather wrap node = wrap node (node.children.flatMap (gather wrap)) := by
  rw [gather, List.flatMap_subtype fun _ _ => rfl, List.unattach_attach]

/-- A node and then everything below it, child after child. -/
def preorder : Expr → List Expr := gather fun node below => node :: below

/-- Everything below a node, child after child, and then the node. -/
def postorder : Expr → List Expr := gather fun node below => below ++ [node]

/-- The tour of a tree. -/
def tour : Expr → List Passage := gather fun node below => .down node :: (below ++ [.up node])

/-- The part of a tour before it comes up out of the root. -/
def descent (node : Expr) : List Passage := .down node :: node.children.flatMap tour

theorem preorder_eq (node : Expr) : node.preorder = node :: node.children.flatMap preorder :=
  gather_eq _ node

theorem postorder_eq (node : Expr) : node.postorder = node.children.flatMap postorder ++ [node] :=
  gather_eq _ node

theorem tour_eq (node : Expr) : node.tour = node.descent ++ [.up node] := gather_eq _ node

/-! ### Nodes of a tour -/

/-- What is picked from a list along a tree is what is picked at each of its nodes. -/
theorem filterMap_gather {Picked : Type} {pick : Item → Option Picked}
    {wrap : Expr → List Item → List Item} {wrap' : Expr → List Picked → List Picked}
    (each : ∀ node below, (wrap node below).filterMap pick = wrap' node (below.filterMap pick))
    (node : Expr) : (gather wrap node).filterMap pick = gather wrap' node := by
  induction node using childInduction with
  | step node inductionHypothesis =>
    rw [gather_eq, gather_eq, each, List.filterMap_flatMap, List.flatMap_congr inductionHypothesis]

theorem entered_tour (node : Expr) : node.tour.filterMap Passage.entered? = node.preorder := by
  refine filterMap_gather (fun node below => ?_) node
  show node :: (below ++ [Passage.up node]).filterMap Passage.entered? = _
  rw [List.filterMap_append]
  exact congrArg (node :: ·) (List.append_nil _)

theorem left_tour (node : Expr) : node.tour.filterMap Passage.left? = node.postorder := by
  refine filterMap_gather (fun node below => ?_) node
  show (below ++ [Passage.up node]).filterMap Passage.left? = _
  rw [List.filterMap_append]
  rfl

theorem entered_descent (node : Expr) :
    node.descent.filterMap Passage.entered? = node.preorder := by
  rw [← entered_tour, tour_eq, List.filterMap_append]
  exact (List.append_nil _).symm

theorem left_descent (node : Expr) :
    node.descent.filterMap Passage.left? = node.children.flatMap postorder :=
  List.filterMap_flatMap.trans (List.flatMap_congr fun child _ => left_tour child)

/-! ### Places of a tour -/

/-- Where tours one after the other come up out of a node, one of them does. -/
theorem exists_descent_flatMap {part : Expr} {nodes : List Expr}
    (each : ∀ node ∈ nodes, ∀ behind ahead, node.tour = behind ++ .up part :: ahead →
      ∃ earlier, behind = earlier ++ part.descent)
    (behind ahead : List Passage) (split : nodes.flatMap tour = behind ++ .up part :: ahead) :
    ∃ earlier, behind = earlier ++ part.descent := by
  induction nodes generalizing behind with
  | nil => exact absurd split (by simp)
  | cons node rest inductionHypothesis =>
    have later := inductionHypothesis fun other member => each other (List.mem_cons_of_mem _ member)
    rw [List.flatMap_cons] at split
    rcases List.append_eq_append_iff.mp split with ⟨gap, rfl, inRest⟩ | ⟨gap, inFirst, rest⟩
    · obtain ⟨earlier, rfl⟩ := later gap inRest
      exact ⟨node.tour ++ earlier, (List.append_assoc _ _ _).symm⟩
    · cases gap with
      | nil =>
        obtain ⟨earlier, none⟩ := later [] rest.symm
        exact absurd none (by simp [descent])
      | cons first gap =>
        obtain ⟨rfl, rfl⟩ := List.cons.inj rest
        exact each node List.mem_cons_self behind gap inFirst

/-- Where a tour comes up out of a node, the descent into that node is what lies directly behind. -/
theorem exists_descent {node part : Expr} (behind ahead : List Passage)
    (split : node.tour = behind ++ .up part :: ahead) :
    ∃ earlier, behind = earlier ++ part.descent := by
  induction node using childInduction generalizing behind ahead with
  | step node inductionHypothesis =>
    rw [tour_eq] at split
    rcases List.eq_nil_or_concat ahead with rfl | ⟨before, last, rfl⟩
    · -- The tour is at its end, and the node is the root.
      obtain ⟨same, root⟩ := List.append_inj' split rfl
      cases root
      exact ⟨[], same.symm⟩
    · have regrouped : node.descent ++ [.up node] = (behind ++ .up part :: before) ++ [last] := by
        simpa using split
      obtain ⟨below, -⟩ := List.append_inj' regrouped rfl
      cases behind with
      | nil => cases below
      | cons first behind =>
        obtain ⟨rfl, inside⟩ := List.cons.inj below
        obtain ⟨earlier, rfl⟩ := exists_descent_flatMap inductionHypothesis behind before inside
        exact ⟨.down node :: earlier, rfl⟩

end Expr

end Treewalk

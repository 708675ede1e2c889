import SourceQuote.Method.Segmentation
import SourceQuote.Proofs.Tree.WellFormed

/-!
Contract: the leaves of well-formed trees.

Owns: the leaves in pre-order, that they are in source order, and that looking for
leaves only below nodes that meet a range finds the same as looking everywhere.

Does not own: which leaves are identifiers.
-/

namespace SourceQuote

namespace Node

def isLeaf (node : Node) : Bool :=
  node.children.isEmpty

def leafNodes (nodes : List Node) : List Node :=
  (preorderList nodes).filter isLeaf

variable {source : String} {cursor stop : Nat} {node : Node} {nodes : List Node}

/-! ## Nodes below a node -/

theorem mem_preorder_self (node : Node) : node ∈ node.preorder := by
  obtain ⟨info, children⟩ := node
  rw [preorder]
  exact List.mem_cons_self

theorem mem_preorderList {below : Node} :
    below ∈ preorderList nodes ↔ ∃ node ∈ nodes, below ∈ node.preorder := by
  induction nodes with
  | nil => simp [preorderList]
  | cons node rest inductionHypothesis => simp [preorderList, inductionHypothesis]

theorem mem_preorder_of_mem_children {child below : Node} (isChild : child ∈ node.children)
    (isBelow : below ∈ child.preorder) : below ∈ node.preorder := by
  obtain ⟨info, children⟩ := node
  rw [preorder]
  apply List.mem_cons_of_mem
  exact mem_preorderList.mpr ⟨child, isChild, isBelow⟩

mutual

/-- Every node of a well-formed tree lies inside the root. -/
theorem within_of_mem_preorder (root : Node) (wellFormed : root.WellFormed source)
    (node : Node) (member : node ∈ root.preorder) :
    root.start ≤ node.start ∧ node.stop ≤ root.stop :=
  match root, wellFormed, member with
  | .mk info children, wellFormed, member => by
      rw [preorder, List.mem_cons] at member
      rcases member with rfl | below
      · exact ⟨Nat.le_refl _, Nat.le_refl _⟩
      · exact within_of_mem_preorderList info.start info.stop children wellFormed.2.2 node below

theorem within_of_mem_preorderList (cursor stop : Nat) (nodes : List Node)
    (ordered : InOrder source cursor stop nodes)
    (node : Node) (member : node ∈ preorderList nodes) :
    cursor ≤ node.start ∧ node.stop ≤ stop :=
  match nodes, ordered, member with
  | first :: rest, ⟨before, wellFormed, following⟩, member => by
      rw [preorderList, List.mem_append] at member
      rcases member with below | later
      · have inside := within_of_mem_preorder first wellFormed node below
        have behind := following.le
        omega
      · have inside := within_of_mem_preorderList first.stop stop rest following node later
        have proper := wellFormed.start_le_stop
        omega

end

/-! ## Leaves in source order -/

theorem leafNodes_cons (node : Node) (rest : List Node) :
    leafNodes (node :: rest) = node.preorder.filter isLeaf ++ leafNodes rest := by
  rw [leafNodes, preorderList, List.filter_append]
  rfl

mutual

/-- The leaves of a well-formed tree are in source order. -/
theorem inOrder_leaves (node : Node) (wellFormed : node.WellFormed source) :
    InOrder source node.start node.stop (node.preorder.filter isLeaf) :=
  match node, wellFormed with
  | .mk _ [], wellFormed => ⟨Nat.le_refl _, wellFormed, Nat.le_refl _⟩
  | .mk info (first :: rest), wellFormed =>
      inOrder_leafNodes info.start info.stop (first :: rest) wellFormed.2.2

theorem inOrder_leafNodes (cursor stop : Nat) (nodes : List Node)
    (ordered : InOrder source cursor stop nodes) :
    InOrder source cursor stop (leafNodes nodes) :=
  match nodes, ordered with
  | [], ordered => ordered
  | node :: rest, ⟨before, wellFormed, following⟩ => by
      rw [leafNodes_cons, inOrder_append]
      refine ⟨node.stop, ?_, inOrder_leafNodes node.stop stop rest following⟩
      exact (inOrder_leaves node wellFormed).widen before (Nat.le_refl _)

end

end Node

/-! ## Leaves that meet a range -/

namespace ByteRange

variable {source : String} (range : ByteRange)

/-- What lies inside a node that does not meet a range does not meet it either. -/
theorem meets_of_within {outer inner : Node}
    (within : outer.start ≤ inner.start ∧ inner.stop ≤ outer.stop)
    (met : range.meets inner = true) :
    range.meets outer = true := by
  simp only [meets, Bool.and_eq_true, decide_eq_true_eq] at met ⊢
  omega

mutual

/-- Passing over nodes that do not meet the range loses no leaf that does. -/
theorem leaves_eq_filter (node : Node) (wellFormed : node.WellFormed source) :
    range.leaves node = (node.preorder.filter Node.isLeaf).filter range.meets :=
  match node, wellFormed with
  | .mk info children, wellFormed => by
      rw [leaves]
      by_cases met : range.meets (.mk info children)
      · rw [if_pos met]
        match children, wellFormed with
        | [], _ => simp [Node.preorder, Node.preorderList, Node.isLeaf, Node.children, met]
        | first :: rest, wellFormed =>
            exact leavesOf_eq_filter info.start info.stop (first :: rest) wellFormed.2.2
      · rw [if_neg met, eq_comm, List.filter_eq_nil_iff]
        intro leaf member leafMet
        have within := Node.within_of_mem_preorder (.mk info children) wellFormed leaf
          (List.mem_of_mem_filter member)
        exact met (range.meets_of_within within leafMet)

theorem leavesOf_eq_filter (cursor stop : Nat) (nodes : List Node)
    (ordered : Node.InOrder source cursor stop nodes) :
    range.leavesOf nodes = (Node.leafNodes nodes).filter range.meets :=
  match nodes, ordered with
  | [], _ => rfl
  | node :: rest, ⟨_, wellFormed, following⟩ => by
      rw [leavesOf, Node.leafNodes_cons, List.filter_append,
        leaves_eq_filter node wellFormed,
        leavesOf_eq_filter node.stop stop rest following]

end

end ByteRange

end SourceQuote

import Mathlib.Data.List.Basic
import SourceQuote.Proofs.Text.Slices
import SourceQuote.Tree.Basic

/-!
Contract: the promise that a grammar makes about a tree and its text.

Owns: `WellFormed` trees, whose nodes lie on character boundaries of the text with
the children of a node inside it, in source order and without overlap; `InOrder`
runs of such nodes; what both give for parts of a run, for the nodes below a node,
and for a node among its siblings; and which child a field gives.

Does not own: flags and kinds. The promise is about byte ranges alone.
-/

namespace SourceQuote

namespace Node

mutual

/-- Every node of the tree begins and ends on a character boundary of the text, and
the children of every node lie inside it, one after the other. -/
def WellFormed (source : String) : Node → Prop
  | .mk info children =>
      Text.IsBoundary source info.start ∧ Text.IsBoundary source info.stop ∧
        InOrder source info.start info.stop children

/-- Well-formed trees that lie between two offsets, one after the other. -/
def InOrder (source : String) (cursor stop : Nat) : List Node → Prop
  | [] => cursor ≤ stop
  | node :: rest =>
      cursor ≤ node.start ∧ WellFormed source node ∧ InOrder source node.stop stop rest

end

mutual

private def decideWellFormed (source : String) :
    (node : Node) → Decidable (WellFormed source node)
  | .mk info children =>
      have := decideInOrder source info.start info.stop children
      inferInstanceAs (Decidable (Text.IsBoundary source info.start ∧
        Text.IsBoundary source info.stop ∧ InOrder source info.start info.stop children))

private def decideInOrder (source : String) (cursor stop : Nat) :
    (nodes : List Node) → Decidable (InOrder source cursor stop nodes)
  | [] => inferInstanceAs (Decidable (cursor ≤ stop))
  | node :: rest =>
      have := decideWellFormed source node
      have := decideInOrder source node.stop stop rest
      inferInstanceAs (Decidable (cursor ≤ node.start ∧ WellFormed source node ∧
        InOrder source node.stop stop rest))

end

instance (source : String) (node : Node) : Decidable (WellFormed source node) :=
  decideWellFormed source node

instance (source : String) (cursor stop : Nat) (nodes : List Node) :
    Decidable (InOrder source cursor stop nodes) :=
  decideInOrder source cursor stop nodes

variable {source : String} {cursor stop : Nat} {node : Node} {nodes : List Node}

/-! ## Runs of nodes -/

theorem inOrder_cons :
    InOrder source cursor stop (node :: nodes) ↔
      cursor ≤ node.start ∧ WellFormed source node ∧ InOrder source node.stop stop nodes :=
  Iff.rfl

namespace WellFormed

theorem startBoundary (wellFormed : WellFormed source node) :
    Text.IsBoundary source node.start := by
  obtain ⟨info, children⟩ := node
  exact wellFormed.1

theorem stopBoundary (wellFormed : WellFormed source node) :
    Text.IsBoundary source node.stop := by
  obtain ⟨info, children⟩ := node
  exact wellFormed.2.1

theorem children (wellFormed : WellFormed source node) :
    InOrder source node.start node.stop node.children := by
  obtain ⟨info, children⟩ := node
  exact wellFormed.2.2

end WellFormed

/-- The offsets around a run are in order. A node of the run has the run of its
children between its own offsets, so the recursion also goes down. -/
theorem InOrder.le : {cursor stop : Nat} → {nodes : List Node} →
    InOrder source cursor stop nodes → cursor ≤ stop
  | _, _, [], ordered => ordered
  | cursor, stop, .mk info children :: rest, ⟨before, wellFormed, after⟩ => by
      have inside : info.start ≤ info.stop := InOrder.le wellFormed.2.2
      have behind : info.stop ≤ stop := InOrder.le after
      change cursor ≤ info.start at before
      omega

theorem WellFormed.isSlice (wellFormed : WellFormed source node) :
    Text.IsSlice source node.start node.stop :=
  ⟨wellFormed.startBoundary, wellFormed.stopBoundary, wellFormed.children.le⟩

theorem WellFormed.start_le_stop (wellFormed : WellFormed source node) :
    node.start ≤ node.stop :=
  wellFormed.isSlice.ordered

/-- A run stays one between offsets further out. -/
theorem InOrder.widen {outerCursor outerStop : Nat}
    (ordered : InOrder source cursor stop nodes)
    (before : outerCursor ≤ cursor)
    (after : stop ≤ outerStop) :
    InOrder source outerCursor outerStop nodes := by
  induction nodes generalizing cursor outerCursor with
  | nil => exact Nat.le_trans before (Nat.le_trans ordered after)
  | cons node rest inductionHypothesis =>
      obtain ⟨start, wellFormed, following⟩ := ordered
      exact ⟨Nat.le_trans before start, wellFormed,
        inductionHypothesis following (Nat.le_refl _)⟩

/-- Two runs, the second after the first, are one run. -/
theorem inOrder_append {first second : List Node} :
    InOrder source cursor stop (first ++ second) ↔
      ∃ middle, InOrder source cursor middle first ∧ InOrder source middle stop second := by
  induction first generalizing cursor with
  | nil =>
      constructor
      · intro ordered
        exact ⟨cursor, Nat.le_refl _, ordered⟩
      · rintro ⟨middle, before, ordered⟩
        exact ordered.widen before (Nat.le_refl _)
  | cons node rest inductionHypothesis =>
      rw [List.cons_append, inOrder_cons, inductionHypothesis]
      constructor
      · rintro ⟨before, wellFormed, middle, following, remaining⟩
        exact ⟨middle, ⟨before, wellFormed, following⟩, remaining⟩
      · rintro ⟨middle, ⟨before, wellFormed, following⟩, remaining⟩
        exact ⟨before, wellFormed, middle, following, remaining⟩

/-- A run stays one when nodes are left out. -/
theorem InOrder.sublist {part : List Node}
    (ordered : InOrder source cursor stop nodes)
    (chosen : part.Sublist nodes) :
    InOrder source cursor stop part := by
  induction chosen generalizing cursor with
  | slnil => exact ordered
  | cons node _ inductionHypothesis =>
      obtain ⟨before, wellFormed, following⟩ := ordered
      have passed := Nat.le_trans before wellFormed.start_le_stop
      exact (inductionHypothesis following).widen passed (Nat.le_refl _)
  | cons_cons node _ inductionHypothesis =>
      obtain ⟨before, wellFormed, following⟩ := ordered
      exact ⟨before, wellFormed, inductionHypothesis following⟩

/-- Every node of a run is well-formed and lies between its offsets. -/
theorem InOrder.of_mem
    (ordered : InOrder source cursor stop nodes)
    (member : node ∈ nodes) :
    WellFormed source node ∧ cursor ≤ node.start ∧ node.stop ≤ stop := by
  have alone := ordered.sublist (List.singleton_sublist.mpr member)
  exact ⟨alone.2.1, alone.1, alone.2.2⟩

/-- Of two nodes of a run, the earlier one ends before the later one begins. -/
theorem InOrder.pairwise (ordered : InOrder source cursor stop nodes) :
    nodes.Pairwise fun earlier later => earlier.stop ≤ later.start := by
  induction nodes generalizing cursor with
  | nil => exact List.Pairwise.nil
  | cons node rest inductionHypothesis =>
      obtain ⟨_, _, following⟩ := ordered
      refine List.Pairwise.cons ?_ (inductionHypothesis following)
      intro later member
      exact (following.of_mem member).2.1

/-- A run lies between any two offsets that its nodes lie between. -/
theorem InOrder.within {innerCursor innerStop : Nat}
    (ordered : InOrder source cursor stop nodes)
    (proper : innerCursor ≤ innerStop)
    (inside : ∀ node ∈ nodes, innerCursor ≤ node.start ∧ node.stop ≤ innerStop) :
    InOrder source innerCursor innerStop nodes := by
  induction nodes generalizing cursor innerCursor with
  | nil => exact proper
  | cons node rest inductionHypothesis =>
      obtain ⟨_, wellFormed, following⟩ := ordered
      have headInside := inside node List.mem_cons_self
      refine ⟨headInside.1, wellFormed, inductionHypothesis following headInside.2 ?_⟩
      intro later member
      exact ⟨(following.of_mem member).2.1,
        (inside later (List.mem_cons_of_mem _ member)).2⟩

/-- A run lies between the start of its first node and the end of its last. -/
theorem InOrder.tighten {first last : Node}
    (ordered : InOrder source cursor stop nodes)
    (opens : nodes.head? = some first)
    (closes : nodes.getLast? = some last) :
    InOrder source first.start last.stop nodes := by
  obtain ⟨rest, rfl⟩ := List.head?_eq_some_iff.mp opens
  obtain ⟨front, split⟩ := List.getLast?_eq_some_iff.mp closes
  have opened : InOrder source first.start stop (first :: rest) :=
    ⟨Nat.le_refl _, ordered.2.1, ordered.2.2⟩
  rw [split, inOrder_append] at opened ⊢
  obtain ⟨middle, leading, before, wellFormed, _⟩ := opened
  exact ⟨middle, leading, before, wellFormed, Nat.le_refl _⟩

/-! ## Children in a field -/

variable {child : Node} {field : String}

theorem mem_children_of_fieldChild? (found : node.fieldChild? field = some child) :
    child ∈ node.children :=
  List.mem_of_find?_eq_some found

theorem field_of_fieldChild? (found : node.fieldChild? field = some child) :
    child.info.field = some field := by
  have holds := List.find?_some found
  exact of_decide_eq_true holds

end Node

/-! ## Nodes among their siblings -/

namespace Placed

variable {source : String} {cursor stop : Nat} {placed : Placed} {nodes before : List Node}

def siblings (placed : Placed) : List Node :=
  placed.before.reverse ++ placed.node :: placed.after

/-- A node is placed among others by what is ahead of it and behind it. -/
theorem mem_among_iff :
    placed ∈ among before nodes ↔
      ∃ front, nodes = front ++ placed.node :: placed.after ∧
        placed.before = front.reverse ++ before := by
  induction nodes generalizing before with
  | nil => simp [among]
  | cons node rest inductionHypothesis =>
      rw [among, List.mem_cons, inductionHypothesis]
      constructor
      · rintro (rfl | ⟨front, rfl, beforeEq⟩)
        · exact ⟨[], rfl, rfl⟩
        · exact ⟨node :: front, rfl, by simp [beforeEq]⟩
      · rintro ⟨front, split, beforeEq⟩
        cases front with
        | nil =>
            left
            obtain ⟨placedBefore, placedNode, placedAfter⟩ := placed
            cases split
            cases beforeEq
            rfl
        | cons first others =>
            right
            rw [List.cons_append, List.cons_eq_cons] at split
            obtain ⟨rfl, restEq⟩ := split
            exact ⟨others, restEq, by simp [beforeEq]⟩

/-- Placing some nodes among each other neither loses nor adds any. -/
theorem siblings_of_mem_among (member : placed ∈ among before nodes) :
    placed.siblings = before.reverse ++ nodes := by
  obtain ⟨front, split, beforeEq⟩ := mem_among_iff.mp member
  rw [siblings, beforeEq, split]
  simp

theorem siblings_of_mem_children {node : Node} (member : placed ∈ children node) :
    placed.siblings = node.children := by
  rw [siblings_of_mem_among member]
  rfl

/-- The node and its siblings are well-formed and in order. -/
def WellFormed (source : String) (placed : Placed) : Prop :=
  ∃ cursor stop, Node.InOrder source cursor stop placed.siblings

mutual

theorem wellFormed_of_mem_descendants (node : Node) (wellFormed : node.WellFormed source)
    (placed : Placed) (member : placed ∈ descendants node) : placed.WellFormed source :=
  match node, wellFormed, member with
  | .mk info children, wellFormed, member =>
      wellFormed_of_mem_descendantsFrom info.start info.stop [] children wellFormed.2.2
        placed member

theorem wellFormed_of_mem_descendantsFrom (cursor stop : Nat) (before nodes : List Node)
    (ordered : Node.InOrder source cursor stop (before.reverse ++ nodes))
    (placed : Placed) (member : placed ∈ descendantsFrom before nodes) :
    placed.WellFormed source :=
  match nodes, ordered, member with
  | node :: rest, ordered, member => by
      rw [descendantsFrom, List.mem_cons, List.mem_append] at member
      rcases member with rfl | below | later
      · exact ⟨cursor, stop, ordered⟩
      · have nodeMember : node ∈ before.reverse ++ node :: rest :=
          List.mem_append_right _ List.mem_cons_self
        exact wellFormed_of_mem_descendants node (ordered.of_mem nodeMember).1 placed below
      · refine wellFormed_of_mem_descendantsFrom cursor stop (node :: before) rest ?_
          placed later
        rwa [List.reverse_cons, List.append_assoc, List.singleton_append]

end

/-- In a well-formed tree every node stands among siblings that are in order. -/
theorem wellFormed_of_mem_all {root : Node} (wellFormed : root.WellFormed source)
    (member : placed ∈ all root) : placed.WellFormed source := by
  rcases List.mem_cons.mp member with rfl | below
  · exact ⟨root.start, root.stop, Nat.le_refl _, wellFormed, Nat.le_refl _⟩
  · exact wellFormed_of_mem_descendants root wellFormed placed below

end Placed

end SourceQuote

import SourceQuote.Method.Declaration
import SourceQuote.Proofs.Tree.WellFormed

/-!
Contract: where a method declaration and its spans lie in the source.

Owns: what a declaration takes from the node that makes it, that the nodes of a
declaration in a well-formed tree are in order, and that every span kind that has a
range has one between character boundaries.

Does not own: what is cut out of a range.
-/

namespace SourceQuote

open Node (InOrder)

/-- The decorators of a declaration are the siblings right before the method. -/
theorem leadingNodes_suffix (before : List Node) : leadingNodes before <:+ before.reverse := by
  unfold leadingNodes
  refine (List.dropWhile_suffix _).trans ?_
  rw [List.reverse_suffix]
  exact List.takeWhile_prefix _

/-- Behind nodes that hold no decorators for what follows, only the nodes in between count. -/
theorem leadingNodes_append {before : List Node} (settled : leadingNodes before = [])
    (nodes : List Node) :
    leadingNodes (nodes ++ before) = leadingNodes nodes := by
  unfold leadingNodes at settled ⊢
  dsimp only at settled ⊢
  rw [List.takeWhile_append]
  split
  · next whole =>
      have all := (List.takeWhile_prefix _).eq_of_length whole
      rw [List.reverse_append, List.dropWhile_append, settled, all]
      rfl
  · rfl

theorem leadingNodes_cons_of_other {node : Node}
    (kinds : node.kind ≠ "decorator" ∧ node.kind ≠ "comment") (before : List Node) :
    leadingNodes (node :: before) = [] := by
  simp [leadingNodes, kinds.1, kinds.2]

theorem leadingNodes_cons_of_decorator {node : Node} (isDecorator : node.kind = "decorator")
    (before : List Node) : leadingNodes (node :: before) = leadingNodes before ++ [node] := by
  unfold leadingNodes
  dsimp only
  rw [List.takeWhile_cons_of_pos (by simp [isDecorator]), List.reverse_cons, List.dropWhile_append]
  split
  · next none =>
      rw [List.isEmpty_iff.mp none]
      simp [isDecorator]
  · rfl

theorem leadingNodes_cons_of_comment {node : Node} (isComment : node.kind = "comment")
    (before : List Node) :
    leadingNodes (node :: before) =
      if leadingNodes before = [] then [] else leadingNodes before ++ [node] := by
  unfold leadingNodes
  dsimp only
  rw [List.takeWhile_cons_of_pos (by simp [isComment]), List.reverse_cons, List.dropWhile_append]
  simp [isComment]

namespace MethodDeclaration

variable {source : String} {placed : Placed} {method : MethodDeclaration}
  {kind : SpanKind} {range : ByteRange}

/-- What a declaration takes from the node that makes it. -/
theorem ofNode_eq_ok (declared : ofNode source placed = .ok method) :
    ∃ nameNode,
      placed.node.kind = "method_definition" ∧
      placed.node.fieldChild? "name" = some nameNode ∧
      parameterNames source (methodNameText source nameNode) placed.node =
        .ok method.parameters ∧
      method = ⟨source, methodNameText source nameNode, method.parameters,
        leadingNodes placed.before, placed.node⟩ := by
  unfold ofNode at declared
  by_cases isMethod : placed.node.kind = "method_definition"
  · rw [if_pos isMethod] at declared
    cases named : placed.node.fieldChild? "name" with
    | none =>
        rw [named] at declared
        contradiction
    | some nameNode =>
        simp only [named] at declared
        cases read : parameterNames source (methodNameText source nameNode) placed.node with
        | error error =>
            rw [read] at declared
            contradiction
        | ok parameters =>
            rw [read] at declared
            cases declared
            exact ⟨nameNode, isMethod, rfl, read, rfl⟩
  · rw [if_neg isMethod] at declared
    contradiction

theorem source_of_ofNode (declared : ofNode source placed = .ok method) :
    method.source = source := by
  obtain ⟨_, _, _, _, shape⟩ := ofNode_eq_ok declared
  rw [shape]

/-- The nodes of the declaration are in order from its first byte to its last. -/
def WellPlaced (method : MethodDeclaration) : Prop :=
  InOrder method.source method.start method.node.stop method.nodes

theorem head?_nodes (method : MethodDeclaration) :
    (method.nodes.head?.map Node.start) = some method.start := by
  unfold nodes start
  cases method.leading with
  | nil => rfl
  | cons first rest => rfl

theorem getLast?_nodes (method : MethodDeclaration) :
    method.nodes.getLast? = some method.node := by
  simp [nodes]

/-- A declaration that stands among well-formed siblings is in order. -/
theorem wellPlaced_of_ofNode
    (wellFormed : placed.WellFormed source)
    (declared : ofNode source placed = .ok method) :
    method.WellPlaced := by
  obtain ⟨nameNode, _, _, _, shape⟩ := ofNode_eq_ok declared
  obtain ⟨cursor, stop, ordered⟩ := wellFormed
  obtain ⟨skipped, split⟩ := leadingNodes_suffix placed.before
  have nodesEq : method.nodes = leadingNodes placed.before ++ [placed.node] := by
    rw [shape]
    rfl
  have siblingsEq :
      placed.siblings = skipped ++ (method.nodes ++ placed.after) := by
    rw [Placed.siblings, ← split, nodesEq]
    simp
  have nodesOrdered : InOrder source cursor stop method.nodes := by
    apply ordered.sublist
    rw [siblingsEq]
    exact (List.sublist_append_left _ _).trans (List.sublist_append_right _ _)
  obtain ⟨first, opens, startEq⟩ := Option.map_eq_some_iff.mp method.head?_nodes
  have tight := nodesOrdered.tighten opens method.getLast?_nodes
  rw [startEq] at tight
  rw [WellPlaced, source_of_ofNode declared]
  exact tight

/-- The body reaches from its first statement to its last. -/
theorem span_bodyOnly (spanned : method.span .bodyOnly = .ok range) :
    ∃ first last, method.statements.head? = some first ∧
      method.statements.getLast? = some last ∧ range = ⟨first.start, last.stop⟩ := by
  unfold span at spanned
  cases opens : method.statements.head? with
  | none =>
      simp only [opens] at spanned
      contradiction
  | some first =>
      cases closes : method.statements.getLast? with
      | none =>
          simp only [opens, closes] at spanned
          contradiction
      | some last =>
          simp only [opens, closes] at spanned
          exact ⟨first, last, rfl, rfl, (Except.ok.inj spanned).symm⟩

namespace WellPlaced

theorem node_wellFormed (wellPlaced : method.WellPlaced) :
    method.node.WellFormed method.source :=
  (InOrder.of_mem wellPlaced (List.mem_of_getLast? method.getLast?_nodes)).1

theorem isSlice (wellPlaced : method.WellPlaced) :
    Text.IsSlice method.source method.start method.node.stop := by
  obtain ⟨first, opens, startEq⟩ := Option.map_eq_some_iff.mp method.head?_nodes
  have firstWellFormed := (InOrder.of_mem wellPlaced (List.mem_of_head? opens)).1
  refine ⟨?_, wellPlaced.node_wellFormed.stopBoundary, InOrder.le wellPlaced⟩
  rw [← startEq]
  exact firstWellFormed.startBoundary

/-- The statements of the body are in order. -/
theorem statements_inOrder (wellPlaced : method.WellPlaced) :
    ∃ cursor stop, InOrder method.source cursor stop method.statements := by
  unfold statements
  cases found : method.node.fieldChild? "body" with
  | none => exact ⟨0, 0, Nat.le_refl 0⟩
  | some body =>
      have inside := Node.mem_children_of_fieldChild? found
      have bodyWellFormed := (wellPlaced.node_wellFormed.children.of_mem inside).1
      refine ⟨body.start, body.stop, bodyWellFormed.children.sublist ?_⟩
      exact List.filter_sublist.trans List.filter_sublist

/-- Every range of a span kind is a slice of the source. -/
theorem span_isSlice
    (wellPlaced : method.WellPlaced)
    (spanned : method.span kind = .ok range) :
    Text.IsSlice method.source range.start range.stop := by
  cases kind with
  | fullDeclaration =>
      cases spanned
      exact wellPlaced.isSlice
  | bodyOnly =>
      obtain ⟨cursor, stop, ordered⟩ := wellPlaced.statements_inOrder
      obtain ⟨first, last, opens, closes, rfl⟩ := span_bodyOnly spanned
      exact ⟨(ordered.of_mem (List.mem_of_head? opens)).1.startBoundary,
        (ordered.of_mem (List.mem_of_getLast? closes)).1.stopBoundary,
        (ordered.tighten opens closes).le⟩

end WellPlaced

end MethodDeclaration

end SourceQuote

import Mathlib.Data.List.Chain
import SourceQuote.Proofs.Method.Window
import SourceQuote.Proofs.Tree.Leaves

/-!
Contract: cutting a method's text loses nothing and finds every identifier.

Owns: the identifier leaves of a range, the text between two offsets with some nodes
replaced, the offsets that references were cut at, and the laws of `cutAt`: written
out again the segments give the range with the chosen references replaced, the
references stand where their leaves stand, and literals are neither empty nor side by
side. The main statement puts them together for every method of a well-formed tree.

Does not own: what a reference is replaced by.
-/

namespace SourceQuote

open Node (InOrder)

/-! ## Identifier leaves of a range -/

namespace MethodDeclaration

/-- The identifier leaves of a declaration that lie in a range, in pre-order. A leaf
without text is no identifier. -/
def identifierLeaves (method : MethodDeclaration) (range : ByteRange) : List Node :=
  (Node.preorderList method.nodes).filter fun node =>
    node.children.isEmpty ∧ isIdentifierKind node.kind ∧
      range.start ≤ node.start ∧ node.stop ≤ range.stop ∧ node.text method.source ≠ ""

end MethodDeclaration

theorem Node.start_lt_stop_of_text {source : String} {node : Node}
    (visible : node.text source ≠ "") : node.start < node.stop := by
  by_cases empty : node.stop ≤ node.start
  · exact absurd (Text.slice_eq_empty source empty) visible
  · omega

namespace MethodDeclaration

variable {method : MethodDeclaration} {range : ByteRange}

/-- The references are the identifier leaves other than the method's own name: the
walk passes over no leaf that counts. -/
theorem references_eq (wellPlaced : method.WellPlaced) (range : ByteRange) :
    method.references range =
      (method.identifierLeaves range).filter fun leaf =>
        leaf.text method.source ≠ method.name := by
  rw [references, ByteRange.leavesOf_eq_filter range _ _ _ wellPlaced, Node.leafNodes,
    identifierLeaves, List.filter_filter, List.filter_filter, List.filter_filter]
  apply List.filter_congr
  intro node _
  rw [Bool.eq_iff_iff]
  simp only [isReference, ByteRange.covers, ByteRange.meets, Node.isLeaf, Bool.and_eq_true,
    decide_eq_true_eq, Bool.not_eq_eq_eq_not, Bool.not_true, String.isEmpty_eq_false_iff]
  constructor
  · rintro ⟨⟨⟨⟨⟨kind, inside⟩, visible⟩, other⟩, _⟩, leaf⟩
    exact ⟨other, leaf, kind, inside.1, inside.2, visible⟩
  · rintro ⟨other, leaf, kind, startInside, stopInside, visible⟩
    have nonempty := Node.start_lt_stop_of_text visible
    exact ⟨⟨⟨⟨⟨kind, startInside, stopInside⟩, visible⟩, other⟩, by omega, by omega⟩, leaf⟩

/-- The identifier leaves of a range are a run in it. -/
theorem identifierLeaves_inOrder
    (wellPlaced : method.WellPlaced)
    (isSlice : Text.IsSlice method.source range.start range.stop) :
    InOrder method.source range.start range.stop (method.identifierLeaves range) := by
  have leavesOrdered := Node.inOrder_leafNodes _ _ _ wellPlaced
  have chosen : (method.identifierLeaves range).Sublist (Node.leafNodes method.nodes) := by
    rw [identifierLeaves, Node.leafNodes]
    apply List.monotone_filter_right
    intro node isIdentifier
    simp only [decide_eq_true_eq] at isIdentifier
    exact isIdentifier.1
  apply (leavesOrdered.sublist chosen).within isSlice.ordered
  intro node member
  have isIdentifier := List.of_mem_filter member
  simp only [decide_eq_true_eq] at isIdentifier
  exact ⟨isIdentifier.2.2.1, isIdentifier.2.2.2.1⟩

theorem references_inOrder
    (wellPlaced : method.WellPlaced)
    (isSlice : Text.IsSlice method.source range.start range.stop) :
    InOrder method.source range.start range.stop (method.references range) := by
  rw [references_eq wellPlaced]
  exact (identifierLeaves_inOrder wellPlaced isSlice).sublist List.filter_sublist

end MethodDeclaration

/-! ## Text with nodes replaced -/

section Cut

variable {source : String} {cursor middle stop : Nat} {nodes : List Node}

def replaceNodes (source : String) (replacement : Node → String) (cursor stop : Nat) :
    List Node → String
  | [] => Text.slice source cursor stop
  | node :: rest =>
      Text.slice source cursor node.start ++ replacement node ++
        replaceNodes source replacement node.stop stop rest

/-- Text in front of the first replaced node joins what follows. -/
theorem slice_append_replaceNodes (replacement : Node → String)
    (front : Text.IsSlice source cursor middle)
    (stopBoundary : Text.IsBoundary source stop)
    (ordered : InOrder source middle stop nodes) :
    Text.slice source cursor middle ++ replaceNodes source replacement middle stop nodes =
      replaceNodes source replacement cursor stop nodes := by
  cases nodes with
  | nil =>
      exact Text.slice_append_slice front ⟨front.stopBoundary, stopBoundary, ordered⟩
  | cons node rest =>
      obtain ⟨after, wellFormed, _⟩ := ordered
      have joined := Text.slice_append_slice front
        ⟨front.stopBoundary, wellFormed.startBoundary, after⟩
      rw [replaceNodes, replaceNodes, ← joined]
      simp only [String.append_assoc]

/-- The literal between two offsets, written out, is the text between them. -/
theorem join_literalBetween (write : Segment → String)
    (literalWritten : ∀ text, write (.literal text) = text) (source : String)
    (start stop : Nat) :
    String.join ((literalBetween source start stop).map write) =
      Text.slice source start stop := by
  unfold literalBetween
  by_cases between : start < stop
  · rw [if_pos between]
    simp [literalWritten]
  · rw [if_neg between, Text.slice_eq_empty source (Nat.le_of_not_lt between)]
    rfl

/-- Segments written out give the text that they were cut from, with exactly those
references replaced that are written as something else. -/
theorem join_cutAt (write : Segment → String) (replaced : Node → Bool)
    (replacement : Node → String)
    (literalWritten : ∀ text, write (.literal text) = text)
    (referenceWritten : ∀ node ∈ nodes, write (.identifierRef (node.text source)) =
      if replaced node then replacement node else node.text source)
    (cursorBoundary : Text.IsBoundary source cursor)
    (stopBoundary : Text.IsBoundary source stop)
    (ordered : InOrder source cursor stop nodes) :
    String.join ((cutAt source cursor stop nodes).map write) =
      replaceNodes source replacement cursor stop (nodes.filter replaced) := by
  induction nodes generalizing cursor with
  | nil => exact join_literalBetween write literalWritten source cursor stop
  | cons node rest inductionHypothesis =>
      obtain ⟨before, wellFormed, following⟩ := ordered
      have headWritten := referenceWritten node List.mem_cons_self
      have restWritten := inductionHypothesis
        (fun later member => referenceWritten later (List.mem_cons_of_mem _ member))
        wellFormed.stopBoundary following
      rw [cutAt, List.map_append, String.join_append,
        join_literalBetween write literalWritten, List.map_cons, String.join_cons,
        headWritten, restWritten]
      by_cases chosen : replaced node
      · rw [if_pos chosen, List.filter_cons_of_pos chosen, replaceNodes, String.append_assoc]
      · rw [if_neg chosen, List.filter_cons_of_neg chosen]
        -- An unreplaced reference is its own source text and joins its neighbours.
        have restOrdered := following.sublist (List.filter_sublist (p := replaced))
        have nodeJoined := slice_append_replaceNodes replacement wellFormed.isSlice
          stopBoundary restOrdered
        have textOrdered := restOrdered.widen wellFormed.start_le_stop (Nat.le_refl stop)
        rw [Node.text, nodeJoined]
        exact slice_append_replaceNodes replacement
          ⟨cursorBoundary, wellFormed.startBoundary, before⟩ stopBoundary textOrdered

/-- Written out as they were cut, the segments give the text back. -/
theorem reconstruct_cutAt
    (cursorBoundary : Text.IsBoundary source cursor)
    (stopBoundary : Text.IsBoundary source stop)
    (ordered : InOrder source cursor stop nodes) :
    reconstruct (cutAt source cursor stop nodes) = Text.slice source cursor stop := by
  have written := join_cutAt Segment.text (fun _ => false) (fun node => node.text source)
    (fun _ => rfl) (fun _ _ => rfl) cursorBoundary stopBoundary ordered
  rw [List.filter_false] at written
  exact written

/-! ## Offsets of references -/

/-- The references among segments, each with the offset that it was cut at, when the
first segment was cut at `offset`. -/
def locatedReferences (offset : Nat) : List Segment → List (Nat × String)
  | [] => []
  | .literal text :: rest => locatedReferences (offset + text.utf8ByteSize) rest
  | .identifierRef name :: rest =>
      (offset, name) :: locatedReferences (offset + name.utf8ByteSize) rest

theorem locatedReferences_literalBetween_append
    (isSlice : Text.IsSlice source cursor stop)
    (segments : List Segment) :
    locatedReferences cursor (literalBetween source cursor stop ++ segments) =
      locatedReferences stop segments := by
  unfold literalBetween
  by_cases between : cursor < stop
  · rw [if_pos between, List.singleton_append, locatedReferences,
      Text.utf8ByteSize_slice isSlice, Nat.add_sub_cancel' isSlice.ordered]
  · have same : cursor = stop := Nat.le_antisymm isSlice.ordered (Nat.le_of_not_lt between)
    rw [if_neg between, List.nil_append, same]

/-- References stand at the offsets of the nodes that they were cut out for. -/
theorem locatedReferences_cutAt
    (cursorBoundary : Text.IsBoundary source cursor)
    (stopBoundary : Text.IsBoundary source stop)
    (ordered : InOrder source cursor stop nodes) :
    locatedReferences cursor (cutAt source cursor stop nodes) =
      nodes.map fun node => (node.start, node.text source) := by
  induction nodes generalizing cursor with
  | nil =>
      have located := locatedReferences_literalBetween_append
        ⟨cursorBoundary, stopBoundary, ordered⟩ []
      rw [List.append_nil] at located
      exact located
  | cons node rest inductionHypothesis =>
      obtain ⟨before, wellFormed, following⟩ := ordered
      have size : (node.text source).utf8ByteSize = node.stop - node.start :=
        Text.utf8ByteSize_slice wellFormed.isSlice
      rw [cutAt, locatedReferences_literalBetween_append
        ⟨cursorBoundary, wellFormed.startBoundary, before⟩, locatedReferences, size,
        Nat.add_sub_cancel' wellFormed.start_le_stop,
        inductionHypothesis wellFormed.stopBoundary following, List.map_cons]

/-! ## Literals -/

def Segment.isLiteral : Segment → Bool
  | .literal _ => true
  | .identifierRef _ => false

/-- No literal is cut where there is no text. -/
theorem literal_ne_empty_of_mem_literalBetween {text : String}
    (isSlice : Text.IsSlice source cursor stop)
    (member : Segment.literal text ∈ literalBetween source cursor stop) :
    text ≠ "" := by
  unfold literalBetween at member
  by_cases between : cursor < stop
  · rw [if_pos between, List.mem_singleton, Segment.literal.injEq] at member
    rw [member]
    exact Text.slice_ne_empty isSlice between
  · rw [if_neg between] at member
    exact absurd member List.not_mem_nil

theorem literal_ne_empty_of_mem_cutAt {text : String}
    (cursorBoundary : Text.IsBoundary source cursor)
    (stopBoundary : Text.IsBoundary source stop)
    (ordered : InOrder source cursor stop nodes)
    (member : Segment.literal text ∈ cutAt source cursor stop nodes) :
    text ≠ "" := by
  induction nodes generalizing cursor with
  | nil =>
      exact literal_ne_empty_of_mem_literalBetween ⟨cursorBoundary, stopBoundary, ordered⟩ member
  | cons node rest inductionHypothesis =>
      obtain ⟨before, wellFormed, following⟩ := ordered
      rw [cutAt, List.mem_append, List.mem_cons] at member
      rcases member with between | isReference | later
      · exact literal_ne_empty_of_mem_literalBetween
          ⟨cursorBoundary, wellFormed.startBoundary, before⟩ between
      · contradiction
      · exact inductionHypothesis wellFormed.stopBoundary following later

/-- Between two literals stands a reference. -/
theorem isChain_cutAt (source : String) (cursor stop : Nat) (nodes : List Node) :
    (cutAt source cursor stop nodes).IsChain fun first second =>
      ¬ (first.isLiteral ∧ second.isLiteral) := by
  induction nodes generalizing cursor with
  | nil =>
      unfold cutAt literalBetween
      split
      · exact List.isChain_singleton _
      · exact List.isChain_nil
  | cons node rest inductionHypothesis =>
      have fromReference :
          (Segment.identifierRef (node.text source) ::
            cutAt source node.stop stop rest).IsChain fun first second =>
              ¬ (first.isLiteral ∧ second.isLiteral) := by
        rw [List.isChain_cons]
        refine ⟨?_, inductionHypothesis node.stop⟩
        intro next _ bothLiteral
        exact Bool.false_ne_true bothLiteral.1
      unfold cutAt literalBetween
      split
      · rw [List.singleton_append, List.isChain_cons_cons]
        exact ⟨fun bothLiteral => Bool.false_ne_true bothLiteral.2, fromReference⟩
      · exact fromReference

end Cut

/-! ## The segments of a method -/

namespace MethodDeclaration

variable {source : String} {root : Node} {placed : Placed} {method : MethodDeclaration}
  {kind : SpanKind} {range : ByteRange}

/-- Segmentation is exact. For every method declared in a well-formed tree and every
span kind that has a range, there are segments; joined they are the source text of the
range; their references are the identifier leaves of the range other than the method's
own name, in order and at their offsets; and literals are neither empty nor adjacent. -/
theorem segments_exact
    (wellFormed : root.WellFormed source)
    (inTree : placed ∈ Placed.all root)
    (declared : ofNode source placed = .ok method)
    (spanned : method.span kind = .ok range) :
    ∃ segments,
      method.segments kind = .ok segments ∧
      Text.slice? source range.start range.stop = some (reconstruct segments) ∧
      method.text kind = .ok (reconstruct segments) ∧
      locatedReferences range.start segments =
        ((method.identifierLeaves range).filter fun leaf =>
          leaf.text source ≠ method.name).map
            (fun leaf => (leaf.start, leaf.text source)) ∧
      (∀ text, Segment.literal text ∈ segments → text ≠ "") ∧
      segments.IsChain fun first second => ¬ (first.isLiteral ∧ second.isLiteral) := by
  have sourceEq := source_of_ofNode declared
  subst sourceEq
  have wellPlaced := wellPlaced_of_ofNode
    (Placed.wellFormed_of_mem_all wellFormed inTree) declared
  have isSlice := wellPlaced.span_isSlice spanned
  have ordered := references_inOrder wellPlaced isSlice
  have joined := reconstruct_cutAt isSlice.startBoundary isSlice.stopBoundary ordered
  refine ⟨method.segmentsOf range, ?_, ?_, ?_, ?_, ?_, ?_⟩
  · rw [segments, spanned]
    rfl
  · rw [segmentsOf, joined]
    exact Text.slice?_eq_some_slice isSlice
  · rw [text, spanned, segmentsOf, joined]
    rfl
  · rw [segmentsOf, locatedReferences_cutAt isSlice.startBoundary isSlice.stopBoundary ordered,
      references_eq wellPlaced]
  · intro text member
    exact literal_ne_empty_of_mem_cutAt isSlice.startBoundary isSlice.stopBoundary ordered member
  · exact isChain_cutAt _ _ _ _

end MethodDeclaration

/-! ## A decorated method

The text `@d f(é) { f(é) }` with its tree: a decorator, and a method whose parameter
takes two bytes and whose body calls the method itself. -/

namespace Sample

def node (kind : String) (field : Option String) (named : Bool) (start stop : Nat)
    (children : List Node) : Node :=
  .mk ⟨kind, field, named, false, false, false, start, stop⟩ children

def source : String := "@d f(é) \x7b f(é) \x7d"

def decorator : Node :=
  node "decorator" none true 0 2
    [node "@" none false 0 1 [], node "identifier" none true 1 2 []]

def method : Node :=
  node "method_definition" none true 3 18
    [node "property_identifier" (some "name") true 3 4 [],
     node "formal_parameters" (some "parameters") true 4 8
      [node "(" none false 4 5 [],
       node "required_parameter" none true 5 7
        [node "identifier" (some "pattern") true 5 7 []],
       node ")" none false 7 8 []],
     node "statement_block" (some "body") true 9 18
      [node "\x7b" none false 9 10 [],
       node "expression_statement" none true 11 16
        [node "identifier" none true 11 12 [],
         node "(" none false 12 13 [],
         node "identifier" none true 13 15 [],
         node ")" none false 15 16 []],
       node "\x7d" none false 17 18 []]]

def body : Node :=
  node "class_body" none true 0 18 [decorator, method]

def placed : Placed := ⟨[decorator], method, []⟩

def declaration : MethodDeclaration := ⟨source, "f", ["é"], [decorator], method⟩

end Sample

namespace MethodDeclaration

/-- The parameter and the decorator are cut out at their bytes, the method's own name
is not, and joined the segments are the whole text. -/
theorem segments_exact_sample :
    Sample.body.WellFormed Sample.source ∧
    Sample.placed ∈ Placed.all Sample.body ∧
    ofNode Sample.source Sample.placed = .ok Sample.declaration ∧
    Sample.declaration.span .fullDeclaration = .ok ⟨0, 18⟩ ∧
    ∃ segments,
      Sample.declaration.segments .fullDeclaration = .ok segments ∧
      reconstruct segments = Sample.source ∧
      locatedReferences 0 segments = [(1, "d"), (5, "é"), (13, "é")] := by
  have wellFormed : Sample.body.WellFormed Sample.source := by decide
  have inTree : Sample.placed ∈ Placed.all Sample.body := List.mem_of_getElem? (i := 4) rfl
  have declared : ofNode Sample.source Sample.placed = .ok Sample.declaration := rfl
  have spanned : Sample.declaration.span .fullDeclaration = .ok ⟨0, 18⟩ := rfl
  obtain ⟨segments, found, joined, _, located, _⟩ :=
    segments_exact wellFormed inTree declared spanned
  refine ⟨wellFormed, inTree, declared, spanned, segments, found, ?_, ?_⟩
  · have whole : Text.slice? Sample.source 0 18 = some Sample.source := rfl
    exact Option.some.inj (joined.symm.trans whole)
  · exact located.trans (by decide)

end MethodDeclaration

end SourceQuote

import SourceQuote.Proofs.Method.Occurrences

/-!
Contract: the body of a method inside its declaration.

Owns: that no leaf of a well-formed tree reaches over an end of the body, that what is cut out of
a range is what is cut out of its parts, and how the two templates of a quotation go together: the
template of the declaration holds that of the body, as segments and as rendered text.

Does not own: what a single reference is replaced by.
-/

namespace SourceQuote

open Node (InOrder)

/-! ## Leaves and the nodes around them -/

/-- Whether a node lies in a range or on one side of it. -/
def ByteRange.UncrossedBy (range : ByteRange) (node : Node) : Prop :=
  node.stop ≤ range.start ∨ (range.start ≤ node.start ∧ node.stop ≤ range.stop) ∨
    range.stop ≤ node.start

namespace Node

variable {source : String} {cursor middle stop : Nat} {nodes : List Node} {node leaf : Node}

mutual

/-- A leaf of a well-formed tree lies inside any other node or on one side of it. -/
theorem uncrossedBy_of_mem_preorder (root : Node) (wellFormed : root.WellFormed source)
    (outer leaf : Node) (isOuter : outer ∈ root.preorder) (isBelow : leaf ∈ root.preorder)
    (isLeaf : leaf.isLeaf = true) : ByteRange.UncrossedBy ⟨outer.start, outer.stop⟩ leaf :=
  match root, wellFormed, isOuter, isBelow with
  | .mk info children, wellFormed, isOuter, isBelow => by
      have inside := within_of_mem_preorder _ wellFormed leaf isBelow
      rw [preorder, List.mem_cons] at isOuter isBelow
      rcases isOuter with rfl | isOuter
      · exact Or.inr (Or.inl inside)
      · rcases isBelow with rfl | isBelow
        · -- A leaf has nothing below it.
          have alone : children = [] := List.isEmpty_iff.mp isLeaf
          rw [alone] at isOuter
          exact absurd isOuter List.not_mem_nil
        · exact uncrossedBy_of_mem_preorderList info.start info.stop children wellFormed.2.2
            outer leaf isOuter isBelow isLeaf

theorem uncrossedBy_of_mem_preorderList (cursor stop : Nat) (nodes : List Node)
    (ordered : InOrder source cursor stop nodes)
    (outer leaf : Node) (isOuter : outer ∈ preorderList nodes)
    (isBelow : leaf ∈ preorderList nodes) (isLeaf : leaf.isLeaf = true) :
    ByteRange.UncrossedBy ⟨outer.start, outer.stop⟩ leaf :=
  match nodes, ordered, isOuter, isBelow with
  | node :: rest, ⟨_, wellFormed, following⟩, isOuter, isBelow => by
      rw [preorderList, List.mem_append] at isOuter isBelow
      rcases isOuter with outerHere | outerLater
      · rcases isBelow with leafHere | leafLater
        · exact uncrossedBy_of_mem_preorder node wellFormed outer leaf outerHere leafHere isLeaf
        · have ahead := (within_of_mem_preorder node wellFormed outer outerHere).2
          have behind := (within_of_mem_preorderList node.stop stop rest following leaf leafLater).1
          exact Or.inr (Or.inr (Nat.le_trans ahead behind))
      · rcases isBelow with leafHere | leafLater
        · have ahead := (within_of_mem_preorder node wellFormed leaf leafHere).2
          have behind :=
            (within_of_mem_preorderList node.stop stop rest following outer outerLater).1
          exact Or.inl (Nat.le_trans ahead behind)
        · exact uncrossedBy_of_mem_preorderList node.stop stop rest following outer leaf
            outerLater leafLater isLeaf

end

/-- A run of nodes with text that all lie on one side of an offset is the run ahead of it and the
run behind it. -/
theorem InOrder.filter_append_filter (ordered : InOrder source cursor stop nodes)
    (proper : ∀ node ∈ nodes, node.start < node.stop)
    (apart : ∀ node ∈ nodes, node.stop ≤ middle ∨ middle ≤ node.start) :
    nodes.filter (fun node => decide (node.stop ≤ middle)) ++
      nodes.filter (fun node => decide (middle ≤ node.start)) = nodes := by
  induction nodes generalizing cursor with
  | nil => rfl
  | cons node rest inductionHypothesis =>
      obtain ⟨_, _, following⟩ := ordered
      have nodeProper := proper node List.mem_cons_self
      have restSame := inductionHypothesis following
        (fun later member => proper later (List.mem_cons_of_mem _ member))
        (fun later member => apart later (List.mem_cons_of_mem _ member))
      rcases apart node List.mem_cons_self with ahead | behind
      · rw [List.filter_cons_of_pos (by simpa using ahead),
          List.filter_cons_of_neg (by simp; omega), List.cons_append, restSame]
      · -- Nothing of the rest lies ahead either.
        have noneAhead : rest.filter (fun node => decide (node.stop ≤ middle)) = [] := by
          apply List.filter_eq_nil_iff.mpr
          intro later member
          have laterProper := proper later (List.mem_cons_of_mem _ member)
          have later := (following.of_mem member).2.1
          simp only [decide_eq_true_eq]
          omega
        rw [noneAhead, List.nil_append] at restSame
        rw [List.filter_cons_of_neg (by simp; omega), noneAhead,
          List.filter_cons_of_pos (by simpa using behind), List.nil_append, restSame]

end Node

/-! ## Segments of neighbouring stretches -/

section Cut

variable {source : String} {cursor middle stop offset : Nat} {first second : List Node}
  {segments cut : List Segment}

/-- Whether segments become others by cutting at most one literal in two, at an offset. -/
def CutsLiteralAt (offset : Nat) (segments cut : List Segment) : Prop :=
  cut = segments ∨ ∃ before left right after,
    segments = before ++ .literal (left ++ right) :: after ∧
    cut = before ++ .literal left :: .literal right :: after ∧
    (reconstruct before ++ left).utf8ByteSize = offset

theorem reconstruct_append (front back : List Segment) :
    reconstruct (front ++ back) = reconstruct front ++ reconstruct back := by
  simp [reconstruct, String.join_append]

theorem CutsLiteralAt.append_left (front : List Segment)
    (cutsAt : CutsLiteralAt offset segments cut) :
    CutsLiteralAt ((reconstruct front).utf8ByteSize + offset) (front ++ segments)
      (front ++ cut) := by
  rcases cutsAt with rfl | ⟨before, left, right, after, rfl, rfl, size⟩
  · exact Or.inl rfl
  · refine Or.inr ⟨front ++ before, left, right, after, by simp, by simp, ?_⟩
    rw [reconstruct_append, String.append_assoc, String.utf8ByteSize_append, size]

/-- A literal of two stretches of text is cut into the literals of both. -/
theorem cutsLiteralAt_literalBetween {outer : Nat} (after : List Segment)
    (front : Text.IsSlice source cursor middle)
    (back : Text.IsSlice source middle outer) :
    CutsLiteralAt (middle - cursor) (literalBetween source cursor outer ++ after)
      (literalBetween source cursor middle ++ (literalBetween source middle outer ++ after)) := by
  unfold literalBetween
  by_cases frontSome : cursor < middle
  · rw [if_pos frontSome, if_pos (Nat.lt_of_lt_of_le frontSome back.ordered)]
    by_cases backSome : middle < outer
    · rw [if_pos backSome]
      refine Or.inr ⟨[], Text.slice source cursor middle, Text.slice source middle outer, after,
        ?_, rfl, ?_⟩
      · rw [Text.slice_append_slice front back]
        rfl
      · rw [← Text.utf8ByteSize_slice front]
        simp [reconstruct]
    · have same : middle = outer := by
        have ordered := back.ordered
        omega
      subst same
      rw [if_neg backSome]
      exact Or.inl rfl
  · have same : cursor = middle := by
      have ordered := front.ordered
      omega
    subst same
    rw [if_neg frontSome]
    exact Or.inl rfl

/-- What is cut out of two stretches in a row is, but for one literal, what is cut out of each. -/
theorem cutsLiteralAt_cutAt
    (cursorBoundary : Text.IsBoundary source cursor)
    (middleBoundary : Text.IsBoundary source middle)
    (stopBoundary : Text.IsBoundary source stop)
    (firstOrdered : InOrder source cursor middle first)
    (secondOrdered : InOrder source middle stop second) :
    CutsLiteralAt (middle - cursor) (cutAt source cursor stop (first ++ second))
      (cutAt source cursor middle first ++ cutAt source middle stop second) := by
  induction first generalizing cursor with
  | nil =>
      have front : Text.IsSlice source cursor middle :=
        ⟨cursorBoundary, middleBoundary, firstOrdered⟩
      cases second with
      | nil =>
          have cutsAt := cutsLiteralAt_literalBetween [] front
            ⟨middleBoundary, stopBoundary, secondOrdered⟩
          simpa only [List.append_nil, cutAt] using cutsAt
      | cons node rest =>
          obtain ⟨before, wellFormed, _⟩ := secondOrdered
          exact cutsLiteralAt_literalBetween _ front
            ⟨middleBoundary, wellFormed.startBoundary, before⟩
  | cons node rest inductionHypothesis =>
      obtain ⟨before, wellFormed, following⟩ := firstOrdered
      have later := inductionHypothesis wellFormed.stopBoundary following
      -- Up to the end of the node both sides are the same.
      let front := literalBetween source cursor node.start ++ [.identifierRef (node.text source)]
      have size : (reconstruct front).utf8ByteSize = node.stop - cursor := by
        have literal : reconstruct (literalBetween source cursor node.start) = _ :=
          join_literalBetween Segment.text (fun _ => rfl) source cursor node.start
        have proper := wellFormed.start_le_stop
        have reference : reconstruct [.identifierRef (node.text source)] = node.text source := by
          simp [reconstruct, Segment.text]
        rw [reconstruct_append, literal, reference, String.utf8ByteSize_append, Node.text,
          Text.utf8ByteSize_slice ⟨cursorBoundary, wellFormed.startBoundary, before⟩,
          Text.utf8ByteSize_slice wellFormed.isSlice]
        omega
      have cutsAt := later.append_left front
      have reached := following.le
      rw [size, show node.stop - cursor + (middle - node.stop) = middle - cursor by
        have proper := wellFormed.start_le_stop
        omega] at cutsAt
      simpa [front, cutAt] using cutsAt

end Cut

namespace MethodDeclaration

variable {source : String} {root : Node} {placed : Placed} {method : MethodDeclaration}
  {quotation : Quotation} {range body : ByteRange} {leaf statement : Node}

/-! ## Ranges in two parts -/

section Parts

variable {start middle stop : Nat}
  (wellPlaced : method.WellPlaced)
  (isSlice : Text.IsSlice method.source start stop)
  (lower : start ≤ middle)
  (upper : middle ≤ stop)
  (apart : ∀ leaf ∈ method.identifierLeaves ⟨start, stop⟩, leaf.stop ≤ middle ∨ middle ≤ leaf.start)

include wellPlaced isSlice lower upper apart

/-- A range in two parts has the identifier leaves of both, if none reaches from one part into the
other. -/
theorem identifierLeaves_append :
    method.identifierLeaves ⟨start, middle⟩ ++ method.identifierLeaves ⟨middle, stop⟩ =
      method.identifierLeaves ⟨start, stop⟩ := by
  have ordered := @identifierLeaves_inOrder method ⟨start, stop⟩ wellPlaced isSlice
  have proper : ∀ leaf ∈ method.identifierLeaves ⟨start, stop⟩, leaf.start < leaf.stop := by
    intro leaf isLeaf
    apply Node.start_lt_stop_of_text
    exact (mem_identifierLeaves.mp isLeaf).2.2.2.2.2
  have aheadEq : method.identifierLeaves ⟨start, middle⟩ =
      (method.identifierLeaves ⟨start, stop⟩).filter fun leaf => decide (leaf.stop ≤ middle) := by
    have within : method.identifierLeaves ⟨start, middle⟩ =
        (method.identifierLeaves ⟨start, stop⟩).filter (ByteRange.covers ⟨start, middle⟩) :=
      identifierLeaves_of_within (Nat.le_refl _) upper
    rw [within]
    apply List.filter_congr
    intro leaf isLeaf
    have inside := (ordered.of_mem isLeaf).2
    simp [ByteRange.covers, inside.1]
  have behindEq : method.identifierLeaves ⟨middle, stop⟩ =
      (method.identifierLeaves ⟨start, stop⟩).filter fun leaf => decide (middle ≤ leaf.start) := by
    have within : method.identifierLeaves ⟨middle, stop⟩ =
        (method.identifierLeaves ⟨start, stop⟩).filter (ByteRange.covers ⟨middle, stop⟩) :=
      identifierLeaves_of_within lower (Nat.le_refl _)
    rw [within]
    apply List.filter_congr
    intro leaf isLeaf
    have inside := (ordered.of_mem isLeaf).2
    simp [ByteRange.covers, inside.2]
  rw [aheadEq, behindEq, ordered.filter_append_filter proper apart]

theorem references_append :
    method.references ⟨start, middle⟩ ++ method.references ⟨middle, stop⟩ =
      method.references ⟨start, stop⟩ := by
  have whole := identifierLeaves_append wellPlaced isSlice lower upper apart
  simp only [references_eq wellPlaced, ← whole, List.filter_append]

theorem parameterLeaves_append :
    method.parameterLeaves ⟨start, middle⟩ ++ method.parameterLeaves ⟨middle, stop⟩ =
      method.parameterLeaves ⟨start, stop⟩ := by
  have whole := identifierLeaves_append wellPlaced isSlice lower upper apart
  simp only [parameterLeaves, ← whole, List.filter_append]

variable (middleBoundary : Text.IsBoundary method.source middle)
include middleBoundary

/-- The segments of a range are those of its two parts but for one literal. -/
theorem cutsLiteralAt_segmentsOf :
    CutsLiteralAt (middle - start) (method.segmentsOf ⟨start, stop⟩)
      (method.segmentsOf ⟨start, middle⟩ ++ method.segmentsOf ⟨middle, stop⟩) := by
  have firstOrdered : InOrder method.source start middle
      (method.references ⟨start, middle⟩) :=
    @references_inOrder method ⟨start, middle⟩ wellPlaced ⟨isSlice.startBoundary, middleBoundary, lower⟩
  have secondOrdered : InOrder method.source middle stop
      (method.references ⟨middle, stop⟩) :=
    @references_inOrder method ⟨middle, stop⟩ wellPlaced ⟨middleBoundary, isSlice.stopBoundary, upper⟩
  have cutsAt := cutsLiteralAt_cutAt isSlice.startBoundary middleBoundary isSlice.stopBoundary
    firstOrdered secondOrdered
  rwa [references_append wellPlaced isSlice lower upper apart] at cutsAt

/-- A range is rendered one part after the other. -/
theorem renderedBetween_append (arguments : List String) :
    method.renderedBetween arguments start stop =
      method.renderedBetween arguments start middle ++
        method.renderedBetween arguments middle stop := by
  have firstOrdered := parameterLeaves_inOrder ⟨start, middle⟩ wellPlaced
    ⟨isSlice.startBoundary, middleBoundary, lower⟩
  have secondOrdered := parameterLeaves_inOrder ⟨middle, stop⟩ wellPlaced
    ⟨middleBoundary, isSlice.stopBoundary, upper⟩
  have whole := parameterLeaves_append wellPlaced isSlice lower upper apart
  rw [renderedBetween, ← whole]
  exact replaceNodes_append _ isSlice.startBoundary middleBoundary isSlice.stopBoundary
    firstOrdered secondOrdered

end Parts

/-! ## The body -/

theorem mem_preorderList_of_mem_statements (isStatement : statement ∈ method.statements) :
    statement ∈ Node.preorderList method.nodes := by
  unfold statements at isStatement
  cases found : method.node.fieldChild? "body" with
  | none =>
      rw [found] at isStatement
      exact absurd isStatement List.not_mem_nil
  | some bodyNode =>
      rw [found] at isStatement
      have isChild : statement ∈ bodyNode.children :=
        List.mem_of_mem_filter (List.mem_of_mem_filter isStatement)
      have inBody := Node.mem_preorder_of_mem_children isChild statement.mem_preorder_self
      have inMethod := Node.mem_preorder_of_mem_children
        (Node.mem_children_of_fieldChild? found) inBody
      exact Node.mem_preorderList.mpr ⟨method.node, List.mem_append_right _ List.mem_cons_self,
        inMethod⟩

/-- The body lies inside the declaration, and no leaf reaches over one of its ends. -/
theorem WellPlaced.body_inside (wellPlaced : method.WellPlaced)
    (spanned : method.span .bodyOnly = .ok body) :
    method.start ≤ body.start ∧ body.start ≤ body.stop ∧ body.stop ≤ method.node.stop ∧
      ∀ leaf ∈ Node.preorderList method.nodes, leaf.isLeaf = true → body.UncrossedBy leaf := by
  obtain ⟨first, last, opens, closes, rfl⟩ := span_bodyOnly spanned
  obtain ⟨cursor, stop, ordered⟩ := wellPlaced.statements_inOrder
  have tight := ordered.tighten opens closes
  have firstInside := mem_preorderList_of_mem_statements (List.mem_of_head? opens)
  have lastInside := mem_preorderList_of_mem_statements (List.mem_of_getLast? closes)
  have lower := (Node.within_of_mem_preorderList _ _ _ wellPlaced first firstInside).1
  have upper := (Node.within_of_mem_preorderList _ _ _ wellPlaced last lastInside).2
  refine ⟨lower, tight.le, upper, ?_⟩
  intro leaf isBelow isLeaf
  have clearOfFirst := Node.uncrossedBy_of_mem_preorderList _ _ _ wellPlaced first leaf
    firstInside isBelow isLeaf
  have clearOfLast := Node.uncrossedBy_of_mem_preorderList _ _ _ wellPlaced last leaf
    lastInside isBelow isLeaf
  have firstEnds := (tight.of_mem (List.mem_of_head? opens)).2.2
  have lastBegins := (tight.of_mem (List.mem_of_getLast? closes)).2.1
  have firstProper := (tight.of_mem (List.mem_of_head? opens)).1.start_le_stop
  have lastProper := (tight.of_mem (List.mem_of_getLast? closes)).1.start_le_stop
  simp only [ByteRange.UncrossedBy] at clearOfFirst clearOfLast ⊢
  omega

theorem reconstruct_segmentsOf {start stop : Nat} (wellPlaced : method.WellPlaced)
    (isSlice : Text.IsSlice method.source start stop) :
    reconstruct (method.segmentsOf ⟨start, stop⟩) = Text.slice method.source start stop :=
  reconstruct_cutAt isSlice.startBoundary isSlice.stopBoundary
    (@references_inOrder method ⟨start, stop⟩ wellPlaced isSlice)

/-- The declaration as what is ahead of the body, the body, and what is behind it: its segments are
those of the three parts but for one literal at each end of the body, and it is rendered one part
after the other. -/
theorem WellPlaced.body_parts (wellPlaced : method.WellPlaced)
    (spanned : method.span .bodyOnly = .ok body) :
    (∃ once,
      CutsLiteralAt (body.start - method.start)
        (method.segmentsOf ⟨method.start, method.node.stop⟩) once ∧
      CutsLiteralAt (body.stop - method.start) once
        (method.segmentsOf ⟨method.start, body.start⟩ ++
          (method.segmentsOf body ++ method.segmentsOf ⟨body.stop, method.node.stop⟩))) ∧
    ∀ arguments,
      method.renderedBetween arguments method.start method.node.stop =
        method.renderedBetween arguments method.start body.start ++
          (method.renderedBetween arguments body.start body.stop ++
            method.renderedBetween arguments body.stop method.node.stop) := by
  have ⟨lower, proper, upper, uncrossed⟩ := wellPlaced.body_inside spanned
  have whole := wellPlaced.isSlice
  have bodySlice := wellPlaced.span_isSlice spanned
  have back : Text.IsSlice method.source body.start method.node.stop :=
    ⟨bodySlice.startBoundary, whole.stopBoundary, Nat.le_trans proper upper⟩
  have clear (range : ByteRange) : ∀ leaf ∈ method.identifierLeaves range,
      body.UncrossedBy leaf := by
    intro leaf isLeaf
    obtain ⟨isBelow, alone, _⟩ := mem_identifierLeaves.mp isLeaf
    exact uncrossed leaf isBelow alone
  have apartAhead : ∀ leaf ∈ method.identifierLeaves ⟨method.start, method.node.stop⟩,
      leaf.stop ≤ body.start ∨ body.start ≤ leaf.start := by
    intro leaf isLeaf
    have sides := clear _ leaf isLeaf
    unfold ByteRange.UncrossedBy at sides
    omega
  have apartBehind : ∀ leaf ∈ method.identifierLeaves ⟨body.start, method.node.stop⟩,
      leaf.stop ≤ body.stop ∨ body.stop ≤ leaf.start := by
    intro leaf isLeaf
    have sides := clear _ leaf isLeaf
    unfold ByteRange.UncrossedBy at sides
    omega
  constructor
  · have first := cutsLiteralAt_segmentsOf wellPlaced whole lower (Nat.le_trans proper upper)
      apartAhead bodySlice.startBoundary
    have second := cutsLiteralAt_segmentsOf wellPlaced back proper upper apartBehind
      bodySlice.stopBoundary
    have ahead : (reconstruct (method.segmentsOf ⟨method.start, body.start⟩)).utf8ByteSize =
        body.start - method.start := by
      have front : Text.IsSlice method.source method.start body.start :=
        ⟨whole.startBoundary, bodySlice.startBoundary, lower⟩
      rw [reconstruct_segmentsOf wellPlaced front, Text.utf8ByteSize_slice front]
    have behind := second.append_left (method.segmentsOf ⟨method.start, body.start⟩)
    rw [ahead, show body.start - method.start + (body.stop - body.start) =
      body.stop - method.start by omega] at behind
    exact ⟨_, first, behind⟩
  · intro arguments
    have first := renderedBetween_append wellPlaced whole lower (Nat.le_trans proper upper)
      apartAhead bodySlice.startBoundary arguments
    have second := renderedBetween_append wellPlaced back proper upper apartBehind
      bodySlice.stopBoundary arguments
    exact first.trans (congrArg _ second)

/-- A template of a quotation renders its range. -/
theorem renderTexts_of_quote {kind : SpanKind} {arguments : List String}
    (wellPlaced : method.WellPlaced)
    (quoted : method.quote = .ok quotation)
    (spanned : method.span kind = .ok range)
    (sameCount : arguments.length = method.parameters.length)
    (shaped : ∀ argument ∈ arguments, Text.isIdentifier argument) :
    (quotation.template kind).renderTexts arguments =
      .ok (method.renderedBetween arguments range.start range.stop) := by
  obtain ⟨own, ownSpan, templateEq⟩ := template_of_quote quoted kind
  have same : own = range := Except.ok.inj (ownSpan.symm.trans spanned)
  subst same
  have isSlice := wellPlaced.span_isSlice spanned
  have arity : arguments.length = (quotation.template kind).arity := by
    rw [sameCount, templateEq]
    rfl
  rw [Template.renderTexts_eq, if_pos arity, firstMisshapen?_eq_none.mpr shaped, templateEq,
    instantiate_segmentsOf wellPlaced isSlice sameCount]
  rfl

/-- The two templates of a quotation stay in step. For every method of a well-formed tree that can
be quoted, the body lies inside the declaration; for all arguments of the right number and shape
the declaration is rendered as what is ahead of the body, the rendered body, and what is behind it,
with the same leaves replaced; and once at most one literal is cut in two at each end of the body,
the segments of the declaration are those of the text ahead, those of the body as they stand in its
own template, and those of the text behind. -/
theorem func_holds_body
    (wellFormed : root.WellFormed source)
    (inTree : placed ∈ Placed.all root)
    (declared : ofNode source placed = .ok method)
    (quoted : method.quote = .ok quotation) :
    ∃ full body,
      method.span .fullDeclaration = .ok full ∧
      method.span .bodyOnly = .ok body ∧
      full.start ≤ body.start ∧ body.start ≤ body.stop ∧ body.stop ≤ full.stop ∧
      (∀ arguments,
        arguments.length = method.parameters.length →
        (∀ argument ∈ arguments, Text.isIdentifier argument) →
        ∃ rendered,
          quotation.body.renderTexts arguments = .ok rendered ∧
          quotation.func.renderTexts arguments =
            .ok (method.renderedBetween arguments full.start body.start ++ rendered ++
              method.renderedBetween arguments body.stop full.stop)) ∧
      ∃ once front back,
        CutsLiteralAt (body.start - full.start) quotation.func.segments once ∧
        CutsLiteralAt (body.stop - full.start) once
          (front ++ (quotation.body.segments ++ back)) ∧
        reconstruct front = Text.slice source full.start body.start ∧
        reconstruct back = Text.slice source body.stop full.stop := by
  have sourceEq := source_of_ofNode declared
  subst sourceEq
  have wellPlaced := wellPlaced_of_ofNode
    (Placed.wellFormed_of_mem_all wellFormed inTree) declared
  obtain ⟨full, fullSpan, funcEq⟩ := template_of_quote quoted .fullDeclaration
  obtain ⟨body, bodySpan, bodyEq⟩ := template_of_quote quoted .bodyOnly
  have fullIs : full = ⟨method.start, method.node.stop⟩ := (Except.ok.inj fullSpan).symm
  subst fullIs
  have ⟨lower, proper, upper, _⟩ := wellPlaced.body_inside bodySpan
  have ⟨⟨once, first, second⟩, rendered⟩ := wellPlaced.body_parts bodySpan
  have whole := wellPlaced.isSlice
  have bodySlice := wellPlaced.span_isSlice bodySpan
  refine ⟨_, body, fullSpan, bodySpan, lower, proper, upper, ?_, once,
    method.segmentsOf ⟨method.start, body.start⟩,
    method.segmentsOf ⟨body.stop, method.node.stop⟩, ?_, ?_, ?_, ?_⟩
  · intro arguments sameCount shaped
    have funcRendered := renderTexts_of_quote wellPlaced quoted fullSpan sameCount shaped
    have bodyRendered := renderTexts_of_quote wellPlaced quoted bodySpan sameCount shaped
    refine ⟨_, bodyRendered, funcRendered.trans ?_⟩
    rw [rendered arguments, String.append_assoc]
  · have isFunc : quotation.func = ⟨method.parameters, _⟩ := funcEq
    rw [isFunc]
    exact first
  · have isBody : quotation.body = ⟨method.parameters, _⟩ := bodyEq
    rw [isBody]
    exact second
  · apply reconstruct_segmentsOf wellPlaced
    exact ⟨whole.startBoundary, bodySlice.startBoundary, lower⟩
  · apply reconstruct_segmentsOf wellPlaced
    exact ⟨bodySlice.stopBoundary, whole.stopBoundary, upper⟩

/-- The body `f(é)` of the sample begins at byte 11 and ends at byte 16. Around it stand the rendered
signature and the closing brace. -/
theorem func_holds_body_sample :
    Sample.body.WellFormed Sample.source ∧
    Sample.placed ∈ Placed.all Sample.body ∧
    ofNode Sample.source Sample.placed = .ok Sample.declaration ∧
    ∃ quotation,
      Sample.declaration.quote = .ok quotation ∧
      (∃ rendered,
        quotation.body.renderTexts ["x"] = .ok rendered ∧
        quotation.func.renderTexts ["x"] = .ok ("@d f(x) \x7b " ++ rendered ++ " \x7d")) ∧
      ∃ once front back,
        CutsLiteralAt 11 quotation.func.segments once ∧
        CutsLiteralAt 16 once (front ++ (quotation.body.segments ++ back)) ∧
        reconstruct front = "@d f(é) \x7b " ∧ reconstruct back = " \x7d" := by
  have wellFormed : Sample.body.WellFormed Sample.source := by decide
  have inTree : Sample.placed ∈ Placed.all Sample.body := List.mem_of_getElem? (i := 4) rfl
  have declared : ofNode Sample.source Sample.placed = .ok Sample.declaration := rfl
  have quoted : ∃ quotation, Sample.declaration.quote = .ok quotation := ⟨_, rfl⟩
  obtain ⟨quotation, quoted⟩ := quoted
  obtain ⟨full, body, fullSpan, bodySpan, _, _, _, inStep, once, front, back, first, second,
    frontText, backText⟩ := func_holds_body wellFormed inTree declared quoted
  have fullIs : full = ⟨0, 18⟩ := Except.ok.inj (fullSpan.symm.trans rfl)
  have bodyIs : body = ⟨11, 16⟩ := Except.ok.inj (bodySpan.symm.trans rfl)
  subst fullIs bodyIs
  have ahead : Sample.declaration.renderedBetween ["x"] 0 11 = "@d f(x) \x7b " := by decide
  have behind : Sample.declaration.renderedBetween ["x"] 16 18 = " \x7d" := by decide
  have signature : Text.slice Sample.source 0 11 = "@d f(é) \x7b " := by decide
  have brace : Text.slice Sample.source 16 18 = " \x7d" := by decide
  obtain ⟨rendered, bodyRendered, funcRendered⟩ := inStep ["x"] rfl (by decide)
  rw [ahead, behind] at funcRendered
  exact ⟨wellFormed, inTree, declared, quotation, quoted, ⟨rendered, bodyRendered, funcRendered⟩,
    once, front, back, first, second, frontText.trans signature, backText.trans brace⟩

end MethodDeclaration

end SourceQuote

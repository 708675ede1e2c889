import SourceQuote.Proofs.Method.Substitution

/-!
Contract: what becomes of a single occurrence of a parameter.

Owns: the rendering of a stretch of a method, and the theorem that rendering a span shows the
argument in the place of each leaf that names a parameter and not the method, between the
renderings of what stands ahead of the leaf and of what stands behind it.

Does not own: the leaves with the method's own name. They stay as they are, so that a method can
still call itself, and a parameter of that name is never replaced.
-/

namespace SourceQuote

open Node (InOrder)

/-- Replacing in two stretches that meet is replacing in the whole. -/
theorem replaceNodes_append {source : String} {cursor middle stop : Nat} {first second : List Node}
    (replacement : Node → String)
    (cursorBoundary : Text.IsBoundary source cursor)
    (middleBoundary : Text.IsBoundary source middle)
    (stopBoundary : Text.IsBoundary source stop)
    (firstOrdered : InOrder source cursor middle first)
    (secondOrdered : InOrder source middle stop second) :
    replaceNodes source replacement cursor stop (first ++ second) =
      replaceNodes source replacement cursor middle first ++
        replaceNodes source replacement middle stop second := by
  induction first generalizing cursor with
  | nil =>
      have front : Text.IsSlice source cursor middle :=
        ⟨cursorBoundary, middleBoundary, firstOrdered⟩
      exact (slice_append_replaceNodes replacement front stopBoundary secondOrdered).symm
  | cons node rest inductionHypothesis =>
      obtain ⟨_, wellFormed, following⟩ := firstOrdered
      rw [List.cons_append, replaceNodes, replaceNodes,
        inductionHypothesis wellFormed.stopBoundary following]
      simp only [String.append_assoc]

section Run

variable {source : String} {start stop : Nat} {before after : List Node} {leaf : Node}

/-- In a run of nodes with text, those that lie ahead of a node are the ones before it. -/
theorem filter_covers_ahead
    (ordered : InOrder source start stop (before ++ leaf :: after))
    (proper : ∀ each ∈ before ++ leaf :: after, each.start < each.stop) :
    (before ++ leaf :: after).filter (ByteRange.covers ⟨start, leaf.start⟩) = before := by
  obtain ⟨middle, beforeOrdered, reached, _, following⟩ := Node.inOrder_append.mp ordered
  rw [List.filter_append, List.filter_eq_self.mpr, List.filter_eq_nil_iff.mpr, List.append_nil]
  · intro each isLater
    have eachProper := proper each (List.mem_append_right _ isLater)
    have notAhead : leaf.start ≤ each.start := by
      rcases List.mem_cons.mp isLater with rfl | further
      · exact Nat.le_refl _
      · have leafProper := proper leaf (List.mem_append_right _ List.mem_cons_self)
        have behind := (following.of_mem further).2.1
        omega
    simp only [ByteRange.covers, Bool.and_eq_true, decide_eq_true_eq]
    omega
  · intro each isEarlier
    have inside := (beforeOrdered.of_mem isEarlier).2
    simp only [ByteRange.covers, Bool.and_eq_true, decide_eq_true_eq]
    omega

/-- In a run of nodes with text, those that lie behind a node are the ones after it. -/
theorem filter_covers_behind
    (ordered : InOrder source start stop (before ++ leaf :: after))
    (proper : ∀ each ∈ before ++ leaf :: after, each.start < each.stop) :
    (before ++ leaf :: after).filter (ByteRange.covers ⟨leaf.stop, stop⟩) = after := by
  obtain ⟨middle, beforeOrdered, reached, _, following⟩ := Node.inOrder_append.mp ordered
  have leafProper := proper leaf (List.mem_append_right _ List.mem_cons_self)
  rw [List.filter_append, List.filter_eq_nil_iff.mpr, List.nil_append, List.filter_cons_of_neg,
    List.filter_eq_self.mpr]
  · intro each isLater
    have inside := (following.of_mem isLater).2
    simp only [ByteRange.covers, Bool.and_eq_true, decide_eq_true_eq]
    omega
  · simp only [ByteRange.covers, Bool.and_eq_true, decide_eq_true_eq]
    omega
  · intro each isEarlier
    have inside := (beforeOrdered.of_mem isEarlier).2
    have eachProper := proper each (List.mem_append_left _ isEarlier)
    simp only [ByteRange.covers, Bool.and_eq_true, decide_eq_true_eq]
    omega

end Run

namespace MethodDeclaration

variable {source : String} {root : Node} {placed : Placed} {method : MethodDeclaration}
  {quotation : Quotation} {range : ByteRange} {arguments : List String} {leaf : Node}

/-- The text between two offsets, with the arguments in place of the leaves that name parameters
and not the method. -/
def renderedBetween (method : MethodDeclaration) (arguments : List String) (start stop : Nat) :
    String :=
  replaceNodes method.source (method.argumentFor arguments) start stop
    (method.parameterLeaves ⟨start, stop⟩)

/-- A rendering of a range has a text in the place of a leaf: ahead of it is the rendering of what
is ahead of the leaf, and behind it the rendering of what is behind the leaf. -/
def ShowsAt (method : MethodDeclaration) (arguments : List String) (range : ByteRange)
    (rendered : String) (leaf : Node) (text : String) : Prop :=
  rendered = method.renderedBetween arguments range.start leaf.start ++ text ++
    method.renderedBetween arguments leaf.stop range.stop

theorem mem_parameterLeaves :
    leaf ∈ method.parameterLeaves range ↔
      leaf ∈ method.identifierLeaves range ∧ leaf.text method.source ∈ method.parameters ∧
        leaf.text method.source ≠ method.name := by
  simp [parameterLeaves]

theorem mem_identifierLeaves :
    leaf ∈ method.identifierLeaves range ↔
      leaf ∈ Node.preorderList method.nodes ∧ leaf.children.isEmpty ∧
        isIdentifierKind leaf.kind ∧ range.start ≤ leaf.start ∧ leaf.stop ≤ range.stop ∧
        leaf.text method.source ≠ "" := by
  simp [identifierLeaves]

theorem bounds_of_mem_parameterLeaves (member : leaf ∈ method.parameterLeaves range) :
    range.start ≤ leaf.start ∧ leaf.start < leaf.stop ∧ leaf.stop ≤ range.stop := by
  obtain ⟨_, _, _, lower, upper, visible⟩ :=
    mem_identifierLeaves.mp (mem_parameterLeaves.mp member).1
  exact ⟨lower, Node.start_lt_stop_of_text visible, upper⟩

/-- The identifier leaves of a smaller range are those of the larger one that lie in it. -/
theorem identifierLeaves_of_within {inner : ByteRange}
    (lower : range.start ≤ inner.start)
    (upper : inner.stop ≤ range.stop) :
    method.identifierLeaves inner = (method.identifierLeaves range).filter inner.covers := by
  simp only [identifierLeaves, List.filter_filter]
  apply List.filter_congr
  intro node _
  rw [Bool.eq_iff_iff]
  simp only [ByteRange.covers, Bool.and_eq_true, decide_eq_true_eq]
  constructor
  · rintro ⟨leaf, kind, startIn, stopIn, visible⟩
    exact ⟨⟨startIn, stopIn⟩, leaf, kind, by omega, by omega, visible⟩
  · rintro ⟨⟨startIn, stopIn⟩, leaf, kind, _, _, visible⟩
    exact ⟨leaf, kind, startIn, stopIn, visible⟩

theorem parameterLeaves_of_within {inner : ByteRange}
    (lower : range.start ≤ inner.start)
    (upper : inner.stop ≤ range.stop) :
    method.parameterLeaves inner = (method.parameterLeaves range).filter inner.covers := by
  rw [parameterLeaves, identifierLeaves_of_within lower upper, List.filter_comm, parameterLeaves]

theorem parameterLeaves_inOrder (range : ByteRange)
    (wellPlaced : method.WellPlaced)
    (isSlice : Text.IsSlice method.source range.start range.stop) :
    InOrder method.source range.start range.stop (method.parameterLeaves range) :=
  (identifierLeaves_inOrder wellPlaced isSlice).sublist List.filter_sublist

/-- Around one of its leaves a range has the leaves of the stretch ahead and of the one behind. -/
theorem parameterLeaves_around
    (wellPlaced : method.WellPlaced)
    (isSlice : Text.IsSlice method.source range.start range.stop)
    (member : leaf ∈ method.parameterLeaves range) :
    method.parameterLeaves range =
      method.parameterLeaves ⟨range.start, leaf.start⟩ ++
        leaf :: method.parameterLeaves ⟨leaf.stop, range.stop⟩ := by
  have ordered := parameterLeaves_inOrder range wellPlaced isSlice
  have proper : ∀ each ∈ method.parameterLeaves range, each.start < each.stop :=
    fun each isLeaf => (bounds_of_mem_parameterLeaves isLeaf).2.1
  have ⟨lower, visible, upper⟩ := bounds_of_mem_parameterLeaves member
  have aheadEq : method.parameterLeaves ⟨range.start, leaf.start⟩ =
      (method.parameterLeaves range).filter (ByteRange.covers ⟨range.start, leaf.start⟩) :=
    parameterLeaves_of_within (Nat.le_refl _) (show leaf.start ≤ range.stop by omega)
  have behindEq : method.parameterLeaves ⟨leaf.stop, range.stop⟩ =
      (method.parameterLeaves range).filter (ByteRange.covers ⟨leaf.stop, range.stop⟩) :=
    parameterLeaves_of_within (show range.start ≤ leaf.stop by omega) (Nat.le_refl _)
  obtain ⟨before, after, split⟩ := List.append_of_mem member
  rw [split] at ordered proper
  rw [aheadEq, behindEq, split, filter_covers_ahead ordered proper,
    filter_covers_behind ordered proper]

/-- In the rendering of a range stands, in the place of a leaf that is replaced, its argument. -/
theorem showsAt_of_mem (arguments : List String)
    (wellPlaced : method.WellPlaced)
    (isSlice : Text.IsSlice method.source range.start range.stop)
    (member : leaf ∈ method.parameterLeaves range) :
    method.ShowsAt arguments range
      (replaceNodes method.source (method.argumentFor arguments) range.start range.stop
        (method.parameterLeaves range))
      leaf (method.argumentFor arguments leaf) := by
  have around := parameterLeaves_around wellPlaced isSlice member
  have ordered := parameterLeaves_inOrder range wellPlaced isSlice
  have wellFormed := (ordered.of_mem member).1
  have bounds := bounds_of_mem_parameterLeaves member
  have aheadOrdered := parameterLeaves_inOrder ⟨range.start, leaf.start⟩ wellPlaced
    ⟨isSlice.startBoundary, wellFormed.startBoundary, bounds.1⟩
  have behindOrdered := parameterLeaves_inOrder ⟨leaf.stop, range.stop⟩ wellPlaced
    ⟨wellFormed.stopBoundary, isSlice.stopBoundary, bounds.2.2⟩
  have fromLeaf : InOrder method.source leaf.start range.stop
      (leaf :: method.parameterLeaves ⟨leaf.stop, range.stop⟩) :=
    ⟨Nat.le_refl _, wellFormed, behindOrdered⟩
  rw [ShowsAt, around, replaceNodes_append _ isSlice.startBoundary wellFormed.startBoundary
    isSlice.stopBoundary aheadOrdered fromLeaf, replaceNodes,
    Text.slice_eq_empty _ (Nat.le_refl leaf.start), String.empty_append, ← String.append_assoc]
  rfl

/-- Every occurrence of a parameter is replaced. For every method of a well-formed tree that can
be quoted, every span kind and all arguments of the right number and shape: rendering succeeds,
and each leaf of the span whose text is the parameter at some position, and not the method's own
name, is shown as the argument at that position. -/
theorem renderTexts_shows
    (wellFormed : root.WellFormed source)
    (inTree : placed ∈ Placed.all root)
    (declared : ofNode source placed = .ok method)
    (quoted : method.quote = .ok quotation)
    (distinct : method.parameters.Nodup)
    (sameCount : arguments.length = method.parameters.length)
    (shaped : ∀ argument ∈ arguments, Text.isIdentifier argument)
    (kind : SpanKind) :
    ∃ range rendered,
      method.span kind = .ok range ∧
      (quotation.template kind).renderTexts arguments = .ok rendered ∧
      ∀ leaf ∈ method.identifierLeaves range, ∀ position : Nat,
        method.parameters[position]? = some (leaf.text source) →
        leaf.text source ≠ method.name →
        ∃ argument, arguments[position]? = some argument ∧
          method.ShowsAt arguments range rendered leaf argument := by
  have sourceEq := source_of_ofNode declared
  subst sourceEq
  have wellPlaced := wellPlaced_of_ofNode
    (Placed.wellFormed_of_mem_all wellFormed inTree) declared
  obtain ⟨range, spanned, templateEq⟩ := template_of_quote quoted kind
  have isSlice := wellPlaced.span_isSlice spanned
  have arity : arguments.length = (quotation.template kind).arity := by
    rw [sameCount, templateEq]
    rfl
  refine ⟨range, replaceNodes method.source (method.argumentFor arguments) range.start range.stop
    (method.parameterLeaves range), spanned, ?_, ?_⟩
  · rw [Template.renderTexts_eq, if_pos arity, firstMisshapen?_eq_none.mpr shaped, templateEq,
      instantiate_segmentsOf wellPlaced isSlice sameCount]
  · intro leaf isLeaf position declares differs
    obtain ⟨inside, atPosition⟩ := List.getElem?_eq_some_iff.mp declares
    have member : leaf ∈ method.parameterLeaves range := by
      apply mem_parameterLeaves.mpr
      exact ⟨isLeaf, List.mem_of_getElem? declares, differs⟩
    -- As the parameters are distinct, the first position with the name is this one.
    have first : method.parameters.idxOf (leaf.text method.source) = position := by
      rw [← atPosition]
      exact distinct.idxOf_getElem position inside
    refine ⟨arguments[position], List.getElem?_eq_getElem (by omega), ?_⟩
    have shown := showsAt_of_mem arguments wellPlaced isSlice member
    rwa [argumentFor, first, List.getD_eq_getElem?_getD, List.getElem?_eq_getElem (by omega),
      Option.getD_some] at shown

/-- Both places of the parameter `é` show the argument; here the one in the body. -/
theorem renderTexts_shows_sample :
    Sample.body.WellFormed Sample.source ∧
    Sample.placed ∈ Placed.all Sample.body ∧
    ofNode Sample.source Sample.placed = .ok Sample.declaration ∧
    ∃ quotation rendered,
      Sample.declaration.quote = .ok quotation ∧
      quotation.func.renderTexts ["x"] = .ok rendered ∧
      Sample.declaration.ShowsAt ["x"] ⟨0, 18⟩ rendered
        (Sample.node "identifier" none true 13 15 []) "x" := by
  have wellFormed : Sample.body.WellFormed Sample.source := by decide
  have inTree : Sample.placed ∈ Placed.all Sample.body := List.mem_of_getElem? (i := 4) rfl
  have declared : ofNode Sample.source Sample.placed = .ok Sample.declaration := rfl
  have quoted : ∃ quotation, Sample.declaration.quote = .ok quotation := ⟨_, rfl⟩
  obtain ⟨quotation, quoted⟩ := quoted
  obtain ⟨range, rendered, spanned, succeeds, shows⟩ := renderTexts_shows wellFormed inTree
    declared quoted (by decide) (show ["x"].length = 1 from rfl) (by decide) .fullDeclaration
  cases spanned
  have isLeaf : Sample.node "identifier" none true 13 15 [] ∈
      Sample.declaration.identifierLeaves ⟨0, 18⟩ := List.mem_of_getElem? (i := 4) rfl
  obtain ⟨argument, isArgument, shown⟩ := shows _ isLeaf 0 (by decide) (by decide)
  cases isArgument
  exact ⟨wellFormed, inTree, declared, quotation, rendered, quoted, succeeds, shown⟩

end MethodDeclaration

/-! ## A parameter with the method's own name

In `f(f){f}` the parameter is called like the method, so that it stays wherever it stands. -/

namespace Sample

/-- A method of seven bytes with a one-letter parameter as its only statement. -/
def shortMethod (start : Nat) : Node :=
  node "method_definition" none true start (start + 7)
    [node "property_identifier" (some "name") true start (start + 1) [],
     node "formal_parameters" (some "parameters") true (start + 1) (start + 4)
      [node "required_parameter" none true (start + 2) (start + 3)
        [node "identifier" (some "pattern") true (start + 2) (start + 3) []]],
     node "statement_block" (some "body") true (start + 4) (start + 7)
      [node "expression_statement" none true (start + 5) (start + 6)
        [node "identifier" none true (start + 5) (start + 6) []]]]

def namesakeText : String := "f(f)\x7bf\x7d"

def namesake : MethodDeclaration := ⟨namesakeText, "f", ["f"], [], shortMethod 0⟩

end Sample

namespace MethodDeclaration

theorem renderTexts_keeps_namesake :
    (Sample.shortMethod 0).WellFormed Sample.namesakeText ∧
    ofNode Sample.namesakeText ⟨[], Sample.shortMethod 0, []⟩ = .ok Sample.namesake ∧
    Sample.namesake.span .bodyOnly = .ok ⟨5, 6⟩ ∧
    ∃ quotation leaf,
      Sample.namesake.quote = .ok quotation ∧
      leaf ∈ Sample.namesake.identifierLeaves ⟨5, 6⟩ ∧
      Sample.namesake.parameters[0]? = some (leaf.text Sample.namesakeText) ∧
      quotation.body.renderTexts ["x"] = .ok "f" ∧
      ¬ Sample.namesake.ShowsAt ["x"] ⟨5, 6⟩ "f" leaf "x" := by
  have quoted : ∃ quotation, Sample.namesake.quote = .ok quotation ∧
      quotation.body.renderTexts ["x"] = .ok "f" := ⟨_, rfl, rfl⟩
  obtain ⟨quotation, quoted, rendered⟩ := quoted
  refine ⟨by decide, rfl, rfl, quotation, Sample.node "identifier" none true 5 6 [], quoted,
    List.mem_of_getElem? (i := 0) rfl, by decide, rendered, ?_⟩
  unfold ShowsAt
  decide

end MethodDeclaration

end SourceQuote

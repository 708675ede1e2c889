import SourceQuote.Proofs.Method.Segmentation
import SourceQuote.Proofs.Template.Rendering

/-!
Contract: rendering a quotation replaces parameters and nothing else.

Owns: the leaves that a rendering replaces, the argument that each is replaced by, and
the law that joins reading a method, cutting it and rendering its templates: for every
list of arguments the outcome is the text of the span with exactly those leaves
replaced, or the first reason against the arguments.

Names are compared as texts. The method's own name is never replaced, also where a
parameter has it.
-/

namespace SourceQuote

open Node (InOrder)

namespace MethodDeclaration

variable {source : String} {root : Node} {placed : Placed} {method : MethodDeclaration}
  {quotation : Quotation} {kind : SpanKind} {range : ByteRange} {arguments : List String}

/-- The identifier leaves of a range that name a parameter and not the method. -/
def parameterLeaves (method : MethodDeclaration) (range : ByteRange) : List Node :=
  (method.identifierLeaves range).filter fun leaf =>
    leaf.text method.source ∈ method.parameters ∧ leaf.text method.source ≠ method.name

def argumentFor (method : MethodDeclaration) (arguments : List String) (leaf : Node) : String :=
  arguments.getD (method.parameters.idxOf (leaf.text method.source)) ""

/-- Quoting a method cuts each of its spans over the method's parameters. -/
theorem template_of_quote (quoted : method.quote = .ok quotation) (kind : SpanKind) :
    ∃ range, method.span kind = .ok range ∧
      quotation.template kind = ⟨method.parameters, method.segmentsOf range⟩ := by
  have fullSpan : method.span .fullDeclaration = .ok ⟨method.start, method.node.stop⟩ := rfl
  unfold quote template segments at quoted
  cases bodySpan : method.span .bodyOnly with
  | error error =>
      rw [fullSpan, bodySpan] at quoted
      contradiction
  | ok bodyRange =>
      rw [fullSpan, bodySpan] at quoted
      cases quoted
      cases kind with
      | fullDeclaration => exact ⟨_, fullSpan, rfl⟩
      | bodyOnly => exact ⟨bodyRange, bodySpan, rfl⟩

theorem references_filter_parameters (wellPlaced : method.WellPlaced) (range : ByteRange) :
    (method.references range).filter
        (fun leaf => decide (leaf.text method.source ∈ method.parameters)) =
      method.parameterLeaves range := by
  rw [references_eq wellPlaced, parameterLeaves, List.filter_filter]
  apply List.filter_congr
  intro leaf _
  simp

/-- With as many arguments as parameters, the segments of a range are instantiated to
its text with the parameter leaves replaced. -/
theorem instantiate_segmentsOf
    (wellPlaced : method.WellPlaced)
    (isSlice : Text.IsSlice method.source range.start range.stop)
    (sameCount : arguments.length = method.parameters.length) :
    Template.instantiate ⟨method.parameters, method.segmentsOf range⟩ arguments =
      replaceNodes method.source (method.argumentFor arguments) range.start range.stop
        (method.parameterLeaves range) := by
  have ordered := references_inOrder wellPlaced isSlice
  rw [← references_filter_parameters wellPlaced range]
  refine join_cutAt _ _ _ (fun _ => rfl) ?_ isSlice.startBoundary isSlice.stopBoundary ordered
  intro leaf _
  rw [Template.substitute, Template.lookup_zip sameCount]
  by_cases declares : leaf.text method.source ∈ method.parameters
  · have position : method.parameters.idxOf (leaf.text method.source) < arguments.length := by
      rw [sameCount]
      exact List.idxOf_lt_length_iff.mpr declares
    simp [declares, argumentFor, position]
  · simp [declares]

end MethodDeclaration

end SourceQuote

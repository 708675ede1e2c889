import SourceQuote.Method.Declaration
import SourceQuote.Quotation

/-!
Contract: cutting a method's text at its identifiers.

Owns: the leaves of a range, which of them are cut out as references, the
segments between them, and the quotation of a method.

Identifiers are told apart by their text alone, never by scope: a local name
that hides a parameter is cut out like the parameter. The method's own name is
not cut out.
-/

namespace SourceQuote

def isIdentifierKind (kind : String) : Bool :=
  kind ∈ ["identifier", "property_identifier", "shorthand_property_identifier",
    "shorthand_property_identifier_pattern", "statement_identifier", "type_identifier"]

namespace ByteRange

/-- Whether a node has a byte in the range, or could have one below it. -/
def meets (range : ByteRange) (node : Node) : Bool :=
  range.start < node.stop && node.start < range.stop

def covers (range : ByteRange) (node : Node) : Bool :=
  range.start ≤ node.start && node.stop ≤ range.stop

mutual

/-- The leaves below a node that meet the range, in order. Nothing is looked for
below a node that does not meet it. -/
def leaves (range : ByteRange) : Node → List Node
  | .mk info children =>
      if range.meets (.mk info children) then
        if children.isEmpty then [.mk info children] else leavesOf range children
      else
        []

def leavesOf (range : ByteRange) : List Node → List Node
  | [] => []
  | node :: rest => leaves range node ++ leavesOf range rest

end

end ByteRange

/-- The literal between two offsets, none if there is no text between them. -/
def literalBetween (source : String) (start stop : Nat) : List Segment :=
  if start < stop then [.literal (Text.slice source start stop)] else []

/-- The text from an offset to another, cut at references that lie between. -/
def cutAt (source : String) (cursor stop : Nat) : List Node → List Segment
  | [] => literalBetween source cursor stop
  | reference :: rest =>
      literalBetween source cursor reference.start ++
        .identifierRef (reference.text source) :: cutAt source reference.stop stop rest

namespace MethodDeclaration

/-- Whether a leaf is cut out as a reference. -/
def isReference (method : MethodDeclaration) (range : ByteRange) (leaf : Node) : Bool :=
  isIdentifierKind leaf.kind && range.covers leaf &&
    !(leaf.text method.source).isEmpty && leaf.text method.source ≠ method.name

def references (method : MethodDeclaration) (range : ByteRange) : List Node :=
  (range.leavesOf method.nodes).filter (method.isReference range)

def segmentsOf (method : MethodDeclaration) (range : ByteRange) : List Segment :=
  cutAt method.source range.start range.stop (method.references range)

def segments (method : MethodDeclaration) (kind : SpanKind) : Except Error (List Segment) := do
  let range ← method.span kind
  return method.segmentsOf range

def template (method : MethodDeclaration) (kind : SpanKind) : Except Error Template := do
  let segments ← method.segments kind
  return ⟨method.parameters, segments⟩

def quote (method : MethodDeclaration) : Except Error Quotation := do
  let func ← method.template .fullDeclaration
  let body ← method.template .bodyOnly
  return ⟨func, body⟩

end MethodDeclaration

end SourceQuote

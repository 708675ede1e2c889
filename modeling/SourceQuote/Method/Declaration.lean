import SourceQuote.Error
import SourceQuote.Segment
import SourceQuote.Tree.Basic

/-!
Contract: method declarations in a class body.

Owns: which nodes declare a method, the method's name and parameters, the
decorators that belong to it, and the byte ranges that are quoted.

A method's decorators are the siblings before it. Going back from the method
over decorators and comments, the declaration begins at the earliest decorator,
so comments between decorators belong to it and comments before them do not.
-/

namespace SourceQuote

structure ByteRange where
  start : Nat
  stop : Nat
deriving DecidableEq, Repr

/-- The name of a method as it was written; a name written as a string loses its
quotes. -/
def methodNameText (source : String) (name : Node) : String :=
  let text := name.text source
  if name.kind = "string" ∧ 2 ≤ text.utf8ByteSize then
    Text.slice text 1 (text.utf8ByteSize - 1)
  else
    text

/-- Whether a node declares an ordinary method: not a constructor, a getter or a
setter. -/
def isOrdinaryMethod (source : String) (node : Node) : Bool :=
  node.kind = "method_definition" &&
    ((node.fieldChild? "name").map (methodNameText source)).getD "" ≠ "constructor" &&
    !node.children.any fun child =>
      !child.info.named && (child.kind = "get" || child.kind = "set")

/-- Whether a method's name is computed, so that it has no name known in advance. -/
def hasComputedName (node : Node) : Bool :=
  match node.fieldChild? "name" with
  | some name => name.kind = "computed_property_name"
  | none => false

/-- The name that one parameter declares, none if it declares nothing to be
replaced. Only plain names and rest parameters with a plain name can be quoted. -/
def parameterName (source method : String) (parameter : Node) :
    Except Error (Option String) :=
  if parameter.kind = "required_parameter" ∨ parameter.kind = "optional_parameter" then
    match parameter.fieldChild? "pattern" with
    | none => .ok none
    | some pattern =>
        let unsupported := Error.unsupportedParameter method (pattern.text source)
        if pattern.kind = "identifier" then .ok (some (pattern.text source))
        else if pattern.kind = "this" then .ok none
        else if pattern.kind = "rest_pattern" then
          match pattern.namedChildren.head? with
          | some inner =>
              if inner.kind = "identifier" then .ok (some (inner.text source))
              else .error unsupported
          | none => .error unsupported
        else .error unsupported
  else
    .ok none

def parameterNames (source method : String) (node : Node) : Except Error (List String) :=
  match node.fieldChild? "parameters" with
  | none => .ok []
  | some parameters => do
      let names ← parameters.namedChildren.mapM (parameterName source method)
      return names.filterMap id

/-- The siblings before a method that belong to its declaration, in source
order. `before` has the nearest sibling first. -/
def leadingNodes (before : List Node) : List Node :=
  let run := before.takeWhile fun sibling =>
    sibling.kind = "decorator" || sibling.kind = "comment"
  run.reverse.dropWhile fun sibling => sibling.kind ≠ "decorator"

structure MethodDeclaration where
  source : String
  name : String
  parameters : List String
  /-- The decorators and the comments between them, before the method node. -/
  leading : List Node
  node : Node

namespace MethodDeclaration

def ofNode (source : String) (placed : Placed) : Except Error MethodDeclaration :=
  if placed.node.kind = "method_definition" then
    match placed.node.fieldChild? "name" with
    | none => .error (.parse .namelessMethod)
    | some nameNode => do
        let name := methodNameText source nameNode
        let parameters ← parameterNames source name placed.node
        return ⟨source, name, parameters, leadingNodes placed.before, placed.node⟩
  else
    .error (.parse (.notAMethod placed.node.kind))

/-- The nodes of the declaration in source order, the method node last. -/
def nodes (method : MethodDeclaration) : List Node :=
  method.leading ++ [method.node]

/-- The byte that the declaration begins at. -/
def start (method : MethodDeclaration) : Nat :=
  match method.leading with
  | [] => method.node.start
  | first :: _ => first.start

/-- The statements of the body; comments are none. -/
def statements (method : MethodDeclaration) : List Node :=
  match method.node.fieldChild? "body" with
  | none => []
  | some body => body.namedChildren.filter fun child => child.kind ≠ "comment"

/-- The range of a span kind. A body without statements has none. -/
def span (method : MethodDeclaration) : SpanKind → Except Error ByteRange
  | .fullDeclaration => .ok ⟨method.start, method.node.stop⟩
  | .bodyOnly =>
      match method.statements.head?, method.statements.getLast? with
      | some first, some last => .ok ⟨first.start, last.stop⟩
      | _, _ => .error (.emptyBody method.name)

def text (method : MethodDeclaration) (kind : SpanKind) : Except Error String := do
  let range ← method.span kind
  return Text.slice method.source range.start range.stop

end MethodDeclaration

end SourceQuote

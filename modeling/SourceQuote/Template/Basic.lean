import SourceQuote.Segment
import SourceQuote.Text.Identifier

/-!
Contract: templates, quoted texts with parameters.

Owns: the type, rendering with arguments in place of parameters, and the text
before any replacement.

A reference to a name is replaced by the argument at the first position that
declares the name; a reference to any other name stays. Replacement is
simultaneous: an argument is never looked at again.
-/

namespace SourceQuote

def Identifier.parse (text : String) : Except Error Identifier :=
  match Identifier.ofString? text with
  | some identifier => .ok identifier
  | none => .error (.invalidIdentifier text)

/-- A quoted text over some parameters. -/
structure Template where
  parameters : List String
  segments : List Segment
deriving DecidableEq, Repr

namespace Template

def arity (template : Template) : Nat :=
  template.parameters.length

def substitute (bindings : List (String × String)) : Segment → String
  | .literal text => text
  | .identifierRef name => (bindings.lookup name).getD name

/-- The quoted text with names bound to other texts. -/
def instantiate (template : Template) (arguments : List String) : String :=
  String.join (template.segments.map (substitute (template.parameters.zip arguments)))

def checkArity (template : Template) (got : Nat) : Except Error Unit :=
  if got = template.arity then .ok () else .error (.arityMismatch template.arity got)

/-- The quoted text with the i-th argument in place of the i-th parameter. -/
def render (template : Template) (arguments : List Identifier) : Except Error String := do
  template.checkArity arguments.length
  return template.instantiate (arguments.map Identifier.text)

/-- Renders with arguments that have yet to be checked. Their number is looked
at first, then their shape from left to right. -/
def renderTexts (template : Template) (arguments : List String) : Except Error String := do
  template.checkArity arguments.length
  let identifiers ← arguments.mapM Identifier.parse
  template.render identifiers

/-- The quoted text before any replacement. -/
def renderAsDeclared (template : Template) : String :=
  reconstruct template.segments

end Template

end SourceQuote

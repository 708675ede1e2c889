import SourceQuote.Template.Basic

/-!
Contract: the quotation of one method.

Owns: the pair of templates, of the whole declaration and of the body alone.
-/

namespace SourceQuote

/-- The two templates that quote one method. -/
structure Quotation where
  /-- Rebuilds the whole declaration. -/
  func : Template
  /-- Rebuilds the statements of the body. -/
  body : Template
deriving DecidableEq, Repr

namespace Quotation

def template (quotation : Quotation) : SpanKind → Template
  | .fullDeclaration => quotation.func
  | .bodyOnly => quotation.body

def arity (quotation : Quotation) : Nat :=
  quotation.func.arity

end Quotation

end SourceQuote

import SourceQuote.Error
import SourceQuote.Text.Blank

/-!
Contract: the pieces of a quoted text, and the two regions that are quoted.

Owns: segments, the text they were cut from, and span kinds with their names.
-/

namespace SourceQuote

/-- One contiguous piece of a quoted text. -/
inductive Segment where
  /-- Text that is always rendered as it is. -/
  | literal (text : String)
  /-- An identifier, which rendering may replace. -/
  | identifierRef (name : String)
deriving DecidableEq, Repr

def Segment.text : Segment → String
  | .literal text => text
  | .identifierRef name => name

def reconstruct (segments : List Segment) : String :=
  String.join (segments.map Segment.text)

/-- The region of a method that a quotation covers. -/
inductive SpanKind where
  /-- The whole declaration with its decorators and signature. -/
  | fullDeclaration
  /-- From the first to the last statement of the body. -/
  | bodyOnly
deriving DecidableEq, Repr

namespace SpanKind

def name : SpanKind → String
  | .fullDeclaration => "func"
  | .bodyOnly => "body"

/-- The name of a span kind in stored documents. -/
def storedName : SpanKind → String
  | .fullDeclaration => "full_declaration"
  | .bodyOnly => "body_only"

/-- The span kind with a given name. Blanks around it and capitals do not matter. -/
def parse (text : String) : Except Error SpanKind :=
  match Text.lowerAscii (Text.trim text) with
  | "func" => .ok .fullDeclaration
  | "full" => .ok .fullDeclaration
  | "declaration" => .ok .fullDeclaration
  | "full_declaration" => .ok .fullDeclaration
  | "body" => .ok .bodyOnly
  | "body_only" => .ok .bodyOnly
  | _ => .error (.unsupportedSpanKind text)

end SpanKind

end SourceQuote

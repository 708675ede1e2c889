import SourceQuote.Template.Basic

/-!
Contract: templates as arrow functions.

Owns: the source text of an arrow function over a template's parameters whose
body is one template literal.

Inside the literal a reference to a parameter becomes a hole and all other text
is escaped: the backslash, the backtick and the dollar sign, which the literal
would read as its own, and the carriage return, which it would read as a line
feed.
-/

namespace SourceQuote.Template

def escapeLiteralChar (c : Char) : List Char :=
  if c = '\\' then ['\\', '\\']
  else if c = '\x60' then ['\\', '\x60']
  else if c = '$' then ['\\', '$']
  else if c = '\r' then ['\\', 'r']
  else [c]

def escapeLiteral (text : String) : String :=
  String.ofList (text.toList.flatMap escapeLiteralChar)

def hole (parameter : String) : String :=
  "$\x7b" ++ parameter ++ "\x7d"

def literalSegment (parameters : List String) : Segment → String
  | .literal text => escapeLiteral text
  | .identifierRef name => if name ∈ parameters then hole name else escapeLiteral name

def literal (template : Template) : String :=
  "`" ++ String.join (template.segments.map (literalSegment template.parameters)) ++ "`"

/-- A parameter of the arrow function. -/
def declareParameter (typed : Bool) (parameter : String) : String :=
  if typed then parameter ++ ": string" else parameter

/-- The arrow function of a template, with type annotations or without. -/
def arrowFunction (template : Template) (typed : Bool) : String :=
  "(" ++ ", ".intercalate (template.parameters.map (declareParameter typed)) ++ ")" ++
    (if typed then ": string" else "") ++ " => " ++ template.literal

end SourceQuote.Template

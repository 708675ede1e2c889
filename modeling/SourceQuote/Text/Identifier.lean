import SourceQuote.Text.Blank

/-!
Contract: the lexical shape of identifiers.

Owns: the test for the shape, dotted identifier paths, and a type of texts that
have the shape.

Does not own: reserved words. A reserved word has the shape of an identifier.
-/

namespace SourceQuote.Text

/-- A character that may open an identifier: an ASCII letter, `_` or `$`. -/
def isIdentifierStart (c : Char) : Bool :=
  c.isAlpha || c = '_' || c = '$'

/-- A character that may continue an identifier: also an ASCII digit. -/
def isIdentifierPart (c : Char) : Bool :=
  isIdentifierStart c || c.isDigit

/-- Whether the characters have the shape of an identifier. -/
def hasIdentifierShape : List Char → Bool
  | [] => false
  | first :: rest => isIdentifierStart first && rest.all isIdentifierPart

/-- Whether a whole text, to its last character, has the shape of an identifier. -/
def isIdentifier (text : String) : Bool :=
  hasIdentifierShape text.toList

/-- Whether a text is a path of identifiers with dots between them. -/
def isDottedIdentifier (text : String) : Bool :=
  (pieces '.' text.toList).all hasIdentifierShape

end SourceQuote.Text

namespace SourceQuote

/-- A text that has the shape of an identifier. -/
structure Identifier where
  text : String
  shape : Text.isIdentifier text = true
deriving DecidableEq, Repr

def Identifier.ofString? (text : String) : Option Identifier :=
  if shape : Text.isIdentifier text = true then some ⟨text, shape⟩ else none

end SourceQuote

/-!
Contract: stretches of a text addressed by byte offsets.

Owns: the text between two byte offsets, the row and column of an offset, the
first line of a text, and the line ending that a text uses.

Offsets count the bytes of the UTF-8 form. A stretch whose ends do not lie on
character boundaries is no text; `slice` then gives the empty text, and callers
that promise boundaries never see that case.
-/

namespace SourceQuote.Text

/-- The text from byte `start` up to byte `stop`, if both are on boundaries. -/
def slice? (text : String) (start stop : Nat) : Option String :=
  String.fromUTF8? (text.toByteArray.extract start stop)

/-- The text from byte `start` up to byte `stop`; empty off the boundaries. -/
def slice (text : String) (start stop : Nat) : String :=
  (slice? text start stop).getD ""

/-- A place in a text: lines and bytes within the line, both counted from one. -/
structure Position where
  row : Nat
  column : Nat
deriving DecidableEq, Repr

/-- Moves a position over one byte. -/
def Position.advance (position : Position) (byte : UInt8) : Position :=
  if byte = 0x0A then ⟨position.row + 1, 1⟩ else ⟨position.row, position.column + 1⟩

def positionAt (text : String) (offset : Nat) : Position :=
  (text.toByteArray.extract 0 offset).toList.foldl Position.advance ⟨1, 1⟩

/-- The characters before the first line feed, without the carriage return that
stands right before it; all characters if there is no line feed. -/
def firstLineChars (chars : List Char) : List Char :=
  let line := chars.takeWhile (· ≠ '\n')
  if line.length < chars.length ∧ line.getLast? = some '\r' then line.dropLast else line

def firstLine (text : String) : String :=
  String.ofList (firstLineChars text.toList)

/-- The line ending that generated lines take from a text: that of its first
line, and a line feed if the text has only one line. -/
def lineEnding (text : String) : String :=
  let chars := text.toList
  let line := chars.takeWhile (· ≠ '\n')
  if line.length < chars.length ∧ line.getLast? = some '\r' then "\r\n" else "\n"

end SourceQuote.Text

/-!
Contract: the lines of a file's bytes.

Owns: cutting bytes into lines, and the lines that are text.

A line ends with a line feed, and a carriage return right before the line feed
belongs to the ending. What comes after the last line feed is a line too, unless
it is empty; it keeps a carriage return at its end.
-/

namespace SourceQuote.Text

def lineFeed : UInt8 := 0x0a

def carriageReturn : UInt8 := 0x0d

def cutAtFeeds : List UInt8 → List (List UInt8)
  | [] => [[]]
  | byte :: rest =>
      if byte = lineFeed then [] :: cutAtFeeds rest
      else
        match cutAtFeeds rest with
        | [] => [[byte]]
        | line :: lines => (byte :: line) :: lines

/-- A line without the carriage return at its end. -/
def withoutReturn (line : List UInt8) : List UInt8 :=
  if line.getLast? = some carriageReturn then line.dropLast else line

/-- The lines among the parts between line feeds. -/
def linesOfCuts : List (List UInt8) → List (List UInt8)
  | [] => []
  | [last] => if last.isEmpty then [] else [last]
  | line :: rest => withoutReturn line :: linesOfCuts rest

/-- The texts of some lines, up to the first that is no text. -/
def textsOfLines : List (List UInt8) → List String
  | [] => []
  | line :: rest =>
      match String.fromUTF8? ⟨line.toArray⟩ with
      | none => []
      | some text => text :: textsOfLines rest

/-- The lines of a file, up to the first that is no text. -/
def textLines (content : ByteArray) : List String :=
  textsOfLines (linesOfCuts (cutAtFeeds content.toList))

end SourceQuote.Text

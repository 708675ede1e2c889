import SourceQuote.Glob.Basic

/-!
Contract: which paths a pattern accepts.

Owns: what each piece can leave of an input, and acceptance.

An input is the bytes of a path. Marks say for every end of it, from the whole input
to the empty one, whether it can remain. A piece turns the marks of what can remain
before it into the marks of what can remain after it. A pattern accepts a path if
its pieces, one after the other, can leave nothing. Every byte counts alone: `?`
and a class take one byte of a longer character.
-/

namespace SourceQuote

def slashByte : UInt8 := 0x2f

def charBytes (c : Char) : List UInt8 :=
  (String.singleton c).toUTF8.toList

/-- For every end of an input, the longest first, whether it can remain. -/
abbrev Marks := List Bool

namespace Marks

/-- Nothing has been taken from an input. -/
def whole (input : List UInt8) : Marks :=
  true :: input.map fun _ => false

/-- Nothing can remain of an input, not even its empty end. -/
def nowhere (input : List UInt8) : Marks :=
  false :: input.map fun _ => false

def afterByte (holds : UInt8 → Bool) (input : List UInt8) (marks : Marks) : Marks :=
  false :: List.zipWith (fun byte mark => mark && holds byte) input marks

def afterBytes (input : List UInt8) : List UInt8 → Marks → Marks
  | [], marks => marks
  | wanted :: more, marks =>
      afterBytes input more (afterByte (fun byte => byte = wanted) input marks)

/-- What can remain after any number of bytes other than slashes; `reached` if such
bytes lead to where the input starts. -/
def afterRun (reached : Bool) : List UInt8 → Marks → Marks
  | byte :: input, mark :: marks =>
      let here := reached || mark
      here :: afterRun (here && byte != slashByte) input marks
  | [], mark :: marks => (reached || mark) :: marks
  | _, [] => []

/-- What can remain after any directories: what could remain before them, and what
starts right after a slash further on. `reached` if something could remain before
the input starts, `atName` if a slash stands right before it. -/
def afterTree (reached atName : Bool) : List UInt8 → Marks → Marks
  | byte :: input, mark :: marks =>
      (mark || (reached && atName)) ::
        afterTree (reached || mark) (byte = slashByte) input marks
  | [], mark :: marks => (mark || (reached && atName)) :: marks
  | _, [] => []

/-- What can remain after any bytes; `reached` if something could remain before. -/
def afterAnything (reached : Bool) : Marks → Marks
  | [] => []
  | mark :: marks => (reached || mark) :: afterAnything (reached || mark) marks

def afterSlash : List UInt8 → Marks → Marks :=
  afterByte fun byte => byte = slashByte

/-- What can remain on one of two ways. -/
def either (first second : Marks) : Marks :=
  List.zipWith (fun a b => a || b) first second

def isExhausted (marks : Marks) : Bool :=
  marks.getLastD false

end Marks

/-- Whether a byte is in a range of characters. The first bytes of the lower end
and the last bytes of the upper end stand for themselves; the range proper runs
from the last byte of the one to the first byte of the other. -/
def rangeHolds (range : Char × Char) (byte : UInt8) : Bool :=
  let low := charBytes range.1
  let high := charBytes range.2
  if range.1 = range.2 then
    low.contains byte
  else
    low.dropLast.contains byte || high.tail.contains byte ||
      (low.getLastD 0 ≤ byte && byte ≤ high.headD 0)

def classHolds (negated : Bool) (ranges : List (Char × Char)) (byte : UInt8) : Bool :=
  (ranges.any fun range => rangeHolds range byte) != negated

mutual

/-- Whether a piece stands for nothing at all: alternatives without a branch that
says anything. -/
def GlobPiece.isVoid : GlobPiece → Bool
  | .alternatives branches => areVoid branches
  | _ => false

def isVoidBranch : List GlobPiece → Bool
  | [] => true
  | piece :: rest => piece.isVoid && isVoidBranch rest

def areVoid : List (List GlobPiece) → Bool
  | [] => true
  | branch :: rest => isVoidBranch branch && areVoid rest

end

mutual

/-- What can remain of an input after a piece. A branch that says nothing does not
count, and alternatives that say nothing take nothing. -/
def GlobPiece.after (input : List UInt8) : GlobPiece → Marks → Marks
  | .literal c, marks => Marks.afterBytes input (charBytes c) marks
  | .anyByte, marks => Marks.afterByte (fun byte => byte != slashByte) input marks
  | .run, marks => Marks.afterRun false input marks
  | .leadingTree, marks => Marks.afterTree false false input marks
  | .trailingTree, marks => Marks.afterAnything false (Marks.afterSlash input marks)
  | .innerTree, marks => Marks.afterTree false false input (Marks.afterSlash input marks)
  | .oneOf negated ranges, marks => Marks.afterByte (classHolds negated ranges) input marks
  | .alternatives branches, marks =>
      if areVoid branches then marks else afterBranches input branches marks

/-- What can remain of an input after pieces in a row. -/
def afterPieces (input : List UInt8) : List GlobPiece → Marks → Marks
  | [], marks => marks
  | piece :: more, marks => afterPieces input more (piece.after input marks)

/-- What can remain of an input after one of several branches. -/
def afterBranches (input : List UInt8) : List (List GlobPiece) → Marks → Marks
  | [], _ => Marks.nowhere input
  | branch :: more, marks =>
      let others := afterBranches input more marks
      if isVoidBranch branch then others else Marks.either (afterPieces input branch marks) others

end

namespace Glob

/-- Whether a pattern accepts a path. The pattern `**` accepts every path. -/
def accepts (glob : Glob) (path : String) : Bool :=
  let input := path.toUTF8.toList
  match glob.pieces with
  | [.leadingTree] => true
  | pieces => (afterPieces input pieces (Marks.whole input)).isExhausted

end Glob

end SourceQuote

import SourceQuote.Glob.Matching
import SourceQuote.Nesting

/-!
Contract: how deep patterns are nested.

Owns: the heights of the parts that a piece consists of, and whether a pattern
stays within the limit.

A wildcard is put around what it repeats, and a class around its members.
Alternatives are put around their branches; those that say nothing do not count.
A pattern is tied to both ends of a path, so its pieces never stand alone.
-/

namespace SourceQuote

/-- The number of members that a range adds to a class: each byte of its two ends,
of which the two in the middle are one range. -/
def rangeMembers (range : Char × Char) : Nat :=
  let low := (charBytes range.1).length
  if range.1 = range.2 then low else low + (charBytes range.2).length - 1

def classHeight (ranges : List (Char × Char)) : Nat :=
  Nesting.together (List.replicate ((ranges.map rangeMembers).foldr (· + ·) 0) 0) + 1

mutual

def GlobPiece.heights : GlobPiece → List Nat
  | .literal c => (charBytes c).map fun _ => 0
  | .anyByte => [1]
  | .run => [2]
  | .leadingTree => [4]
  | .trailingTree => [0, 1]
  | .innerTree => [4]
  | .oneOf _ ranges => [classHeight ranges]
  | .alternatives branches =>
      if areVoid branches then [] else [Nesting.together (branchHeights branches) + 1]

def pieceHeights : List GlobPiece → List Nat
  | [] => []
  | piece :: more => piece.heights ++ pieceHeights more

/-- The heights of the branches that say something. -/
def branchHeights : List (List GlobPiece) → List Nat
  | [] => []
  | branch :: more =>
      if isVoidBranch branch then branchHeights more
      else Nesting.together (pieceHeights branch) :: branchHeights more

end

namespace Glob

/-- The height of a pattern, with the ends of the path on both sides. -/
def height (glob : Glob) : Nat :=
  Nesting.together ([0] ++ pieceHeights glob.pieces ++ [0])

def isWithinLimit (glob : Glob) : Bool :=
  glob.height ≤ Nesting.limit

end Glob

end SourceQuote

/-!
Contract: patterns for paths, as data.

Owns: the pieces of a pattern and what a pattern is.

A pattern speaks about the bytes of a slash-separated path. `Glob.Reader` gives
the written form, `Glob.Matching` the meaning and `Glob.Height` the depth.
-/

namespace SourceQuote

inductive GlobPiece where
  | literal (c : Char)
  /-- One byte that is no slash, written `?`. -/
  | anyByte
  /-- Any bytes that are no slashes, written `*`. -/
  | run
  /-- Any directories before what follows, written `**/` at the start. -/
  | leadingTree
  /-- A slash and anything, written `/**` at the end. -/
  | trailingTree
  /-- A slash, or any directories between two, written `/**/`. -/
  | innerTree
  /-- One byte of a class, or one outside it, written in square brackets. -/
  | oneOf (negated : Bool) (ranges : List (Char × Char))
  /-- One of several patterns, written in braces. -/
  | alternatives (branches : List (List GlobPiece))

structure Glob where
  pieces : List GlobPiece

end SourceQuote

/-!
Contract: how deep a written pattern may be nested.

Owns: the height of parts that stand together, and the limit on heights.

A part has a height: none for a single character, and one more for everything that
is put around parts. Parts that stand together, in a row or as alternatives, count
as one thing around them, unless there is only one.
-/

namespace SourceQuote.Nesting

/-- The greatest height that a pattern may have. -/
def limit : Nat := 250

/-- The height of parts that stand together. -/
def together : List Nat → Nat
  | [] => 0
  | [height] => height
  | heights => heights.foldl max 0 + 1

end SourceQuote.Nesting

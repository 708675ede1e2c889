/-!
Contract: sets of characters given by ranges of their codes.

Owns: the test whether a character lies in one of the ranges.

Does not own: any such set; each stands in a module of its own.
-/

namespace SourceQuote.Text

def inRange (code : Nat) (range : Nat × Nat) : Bool :=
  range.1 ≤ code && code ≤ range.2

/-- Whether the code of a character lies in one of the ranges. -/
def inSomeRange (ranges : Array (Nat × Nat)) (c : Char) : Bool :=
  ranges.any (inRange c.toNat)

end SourceQuote.Text

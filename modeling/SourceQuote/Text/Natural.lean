/-!
Contract: natural numbers written in decimal, below a bound.

Owns: the reader of a number with an optional plus sign.
-/

namespace SourceQuote.Text

def wordBound : Nat := UInt64.size

def digitsValue (digits : List Char) : Nat :=
  digits.foldl (fun value c => 10 * value + (c.toNat - 48)) 0

/-- The number below a bound that a text writes: digits, which may start with
zeros, after at most one plus sign. -/
def natural? (bound : Nat) (text : String) : Option Nat :=
  let digits :=
    match text.toList with
    | '+' :: rest => rest
    | chars => chars
  if digits ≠ [] ∧ digits.all Char.isDigit ∧ digitsValue digits < bound then
    some (digitsValue digits)
  else
    none

end SourceQuote.Text

import SourceQuote.Log.Expression.WellFormed

/-!
Contract: the values that a filter may ask a field for.

Owns: which texts are such values. A value is a number or a regular expression.

Does not own: what a value matches. Directives with a value speak about no event.
-/

namespace SourceQuote.Log.ValuePattern

def spanDigits (chars : List Char) : List Char × List Char :=
  (chars.takeWhile Char.isDigit, chars.dropWhile Char.isDigit)

def dropSign : List Char → List Char
  | '+' :: rest => rest
  | '-' :: rest => rest
  | chars => chars

/-- Whether characters are an exponent, or nothing. -/
def isExponent : List Char → Bool
  | [] => true
  | c :: rest =>
      let digits := dropSign rest
      (c = 'e' || c = 'E') && !digits.isEmpty && digits.all Char.isDigit

/-- Whether characters are a decimal number: digits, a fraction and an exponent. -/
def isDecimal (chars : List Char) : Bool :=
  let (whole, rest) := spanDigits chars
  match rest with
  | '.' :: rest =>
      let (fraction, rest) := spanDigits rest
      (!whole.isEmpty || !fraction.isEmpty) && isExponent rest
  | rest => !whole.isEmpty && isExponent rest

/-- Whether a text is a number, or a name of one that is no decimal. -/
def isNumber (text : String) : Bool :=
  let unsigned := dropSign text.toList
  isDecimal unsigned ||
    ["inf", "infinity", "nan"].contains (String.ofList (unsigned.map Char.toLower))

/-- Whether a filter may ask a field for this value. -/
def isValue (text : String) : Bool :=
  isNumber text || Expression.isWellFormed text

end SourceQuote.Log.ValuePattern

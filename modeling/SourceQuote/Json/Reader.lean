import SourceQuote.Json.Basic

/-!
Contract: reading JSON text.

Owns: the strict grammar: the blanks are space, tab, line feed and carriage
return; no comments, no trailing commas, no byte order mark, no text after the
value, no raw control characters in strings, no leading zeros. Strings with an
escape for half of a surrogate pair are read and denote no text.

Every reader takes the characters and returns what it read with the characters
that follow, or none.
-/

namespace SourceQuote.Json

def isSpace (c : Char) : Bool :=
  c = ' ' || c = '\t' || c = '\n' || c = '\r'

def skipSpace (chars : List Char) : List Char :=
  chars.dropWhile isSpace

def hexValue? (c : Char) : Option Nat :=
  if '0' ≤ c ∧ c ≤ '9' then some (c.toNat - 48)
  else if 'a' ≤ c ∧ c ≤ 'f' then some (c.toNat - 87)
  else if 'A' ≤ c ∧ c ≤ 'F' then some (c.toNat - 55)
  else none

def hexCode? (a b c d : Char) : Option Nat := do
  let a ← hexValue? a
  let b ← hexValue? b
  let c ← hexValue? c
  let d ← hexValue? d
  return ((a * 16 + b) * 16 + c) * 16 + d

/-- A unit of a string: a character, or half of a surrogate pair. -/
inductive StringUnit where
  | char (value : Char)
  | half (code : Nat)

/-- The unit that an escape by code stands for. -/
def StringUnit.ofCode (code : Nat) : StringUnit :=
  if 0xD800 ≤ code ∧ code ≤ 0xDFFF then .half code else .char (Char.ofNat code)

def shortEscape? : Char → Option Char
  | '"' => some '"'
  | '\\' => some '\\'
  | '/' => some '/'
  | 'b' => some '\x08'
  | 'f' => some '\x0c'
  | 'n' => some '\n'
  | 'r' => some '\r'
  | 't' => some '\t'
  | _ => none

/-- Reads the units of a string up to and with its closing quote. -/
def readUnits : List Char → Option (List StringUnit × List Char)
  | [] => none
  | '"' :: rest => some ([], rest)
  | '\\' :: 'u' :: a :: b :: c :: d :: rest => do
      let code ← hexCode? a b c d
      let (units, rest) ← readUnits rest
      return (.ofCode code :: units, rest)
  | '\\' :: c :: rest => do
      let value ← shortEscape? c
      let (units, rest) ← readUnits rest
      return (.char value :: units, rest)
  | c :: rest =>
      if c = '\\' ∨ c.toNat < 0x20 then none
      else do
        let (units, rest) ← readUnits rest
        return (.char c :: units, rest)

def pairChar (high low : Nat) : Char :=
  Char.ofNat (0x10000 + (high - 0xD800) * 0x400 + (low - 0xDC00))

/-- The characters that units denote: a high half right before a low half is one
character, and any other half denotes nothing. -/
def charsOfUnits : List StringUnit → Option (List Char)
  | [] => some []
  | .char c :: rest => (charsOfUnits rest).map (c :: ·)
  | .half high :: .half low :: rest =>
      if high < 0xDC00 ∧ 0xDC00 ≤ low then
        (charsOfUnits rest).map (pairChar high low :: ·)
      else
        none
  | .half _ :: _ => none

/-- Reads a string whose opening quote was read. -/
def readString (chars : List Char) : Option (Option String × List Char) :=
  (readUnits chars).map fun (units, rest) => ((charsOfUnits units).map String.ofList, rest)

def naturalOfDigits (digits : List Char) : Nat :=
  digits.foldl (fun value c => 10 * value + (c.toNat - 48)) 0

/-- The digits at the front and what follows; none without a digit. -/
def readDigits (chars : List Char) : Option (List Char × List Char) :=
  let digits := chars.takeWhile Char.isDigit
  if digits = [] then none else some (digits, chars.dropWhile Char.isDigit)

/-- The fraction at the front, if there is a point; a point without a digit is
a fault. -/
def readFraction : List Char → Option (List Char × List Char)
  | '.' :: rest => (readDigits rest).map fun (digits, rest) => ('.' :: digits, rest)
  | chars => some ([], chars)

def readSign : List Char → List Char × List Char
  | '+' :: rest => (['+'], rest)
  | '-' :: rest => (['-'], rest)
  | chars => ([], chars)

/-- The exponent at the front, if there is one. -/
def readExponent : List Char → Option (List Char × List Char)
  | c :: rest =>
      if c = 'e' ∨ c = 'E' then
        let (sign, rest) := readSign rest
        (readDigits rest).map fun (digits, rest) => (c :: sign ++ digits, rest)
      else
        some ([], c :: rest)
  | [] => some ([], [])

/-- The whole part of a number: one zero, or digits that do not start with one. -/
def readWhole (chars : List Char) : Option (List Char × List Char) :=
  (readDigits chars).bind fun (digits, rest) =>
    if digits.head? = some '0' ∧ digits.length ≠ 1 then none else some (digits, rest)

def readNumber (chars : List Char) : Option (Json × List Char) := do
  let (minus, unsigned) : List Char × List Char :=
    match chars with
    | '-' :: rest => (['-'], rest)
    | chars => ([], chars)
  let (whole, rest) ← readWhole unsigned
  let (fraction, rest) ← readFraction rest
  let (exponent, rest) ← readExponent rest
  if minus = [] ∧ fraction = [] ∧ exponent = [] then
    return (.natural (naturalOfDigits whole), rest)
  else
    return (.number (minus ++ whole ++ fraction ++ exponent), rest)

/-- The characters after a word that must stand at the front. -/
def readWord (word : List Char) (value : Json) (chars : List Char) :
    Option (Json × List Char) :=
  if word.isPrefixOf chars then some (value, chars.drop word.length) else none

mutual

/-- Reads a value that begins at the first character. `fuel` bounds the number
of nested and neighbouring values; see `parse?` for one that suffices. -/
def readValue : Nat → List Char → Option (Json × List Char)
  | 0, _ => none
  | fuel + 1, chars =>
      match chars with
      | 'n' :: _ => readWord "null".toList .null chars
      | 't' :: _ => readWord "true".toList (.bool true) chars
      | 'f' :: _ => readWord "false".toList (.bool false) chars
      | '"' :: rest => (readString rest).map fun (text, rest) => (.string text, rest)
      | '[' :: rest =>
          match skipSpace rest with
          | ']' :: rest => some (.array [], rest)
          | rest => (readElements fuel rest).map fun (elements, rest) =>
              (.array elements, rest)
      | '\x7b' :: rest =>
          match skipSpace rest with
          | '\x7d' :: rest => some (.object [], rest)
          | rest => (readMembers fuel rest).map fun (members, rest) =>
              (.object members, rest)
      | chars => readNumber chars

/-- Reads the elements of an array, from the first one to the closing bracket. -/
def readElements : Nat → List Char → Option (List Json × List Char)
  | 0, _ => none
  | fuel + 1, chars => do
      let (element, rest) ← readValue fuel chars
      match skipSpace rest with
      | ']' :: rest => return ([element], rest)
      | ',' :: rest =>
          let (elements, rest) ← readElements fuel (skipSpace rest)
          return (element :: elements, rest)
      | _ => none

/-- Reads the members of an object, from the first one to the closing brace. -/
def readMembers : Nat → List Char → Option (List (Option String × Json) × List Char)
  | 0, _ => none
  | fuel + 1, chars =>
      match chars with
      | '"' :: rest => do
          let (key, rest) ← readString rest
          match skipSpace rest with
          | ':' :: rest =>
              let (value, rest) ← readValue fuel (skipSpace rest)
              match skipSpace rest with
              | '\x7d' :: rest => return ([(key, value)], rest)
              | ',' :: rest =>
                  let (members, rest) ← readMembers fuel (skipSpace rest)
                  return ((key, value) :: members, rest)
              | _ => none
          | _ => none
      | _ => none

end

/-- The value that a text writes, none if it writes none. Every second step into
a value or past one takes at least one character, so twice the number of
characters is fuel enough. -/
def parse? (text : String) : Option Json :=
  let chars := skipSpace text.toList
  match readValue (2 * chars.length + 2) chars with
  | some (value, rest) => if skipSpace rest = [] then some value else none
  | none => none

end SourceQuote.Json

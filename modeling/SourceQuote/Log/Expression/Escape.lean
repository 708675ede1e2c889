import SourceQuote.Log.Expression.Mode

/-!
Contract: the escapes of regular expressions.

Owns: which characters may follow a backslash, and what they stand for.

Does not own: names in braces. A brace cannot be closed within a filter, so escapes
that need one are refused.
-/

namespace SourceQuote.Log.Expression

inductive Escape where
  | character (code : Nat)
  /-- Any character of a set. -/
  | set
  /-- An edge of the text or of a word. -/
  | edge
deriving DecidableEq, Repr

def digitValue? (c : Char) : Option Nat :=
  if c.isDigit then some (c.toNat - 48)
  else if 'a' ≤ c.toLower && c.toLower ≤ 'f' then some (c.toLower.toNat - 87)
  else none

/-- The number that some hexadecimal digits write, after those that have been read,
and what follows them. -/
def hexadecimal? (mode : Mode) : Nat → Nat → List Char → Option (Nat × List Char)
  | 0, value, chars => some (value, chars)
  | count + 1, value, chars =>
      match mode.skip chars with
      | [] => none
      | c :: rest =>
          (digitValue? c).bind fun digit => hexadecimal? mode count (16 * value + digit) rest

/-- The character whose code a number of hexadecimal digits write, and what follows
them. -/
def codeEscape? (mode : Mode) (count : Nat) (chars : List Char) :
    Option (Escape × List Char) :=
  (hexadecimal? mode count 0 chars).bind fun (code, rest) =>
    if code.isValidChar then some (.character code, rest) else none

/-- The character with a code of two digits. Where bytes count, the code is that of
a byte, and one beyond ASCII is no character. -/
def byteEscape? (mode : Mode) (chars : List Char) : Option (Escape × List Char) :=
  (codeEscape? mode 2 chars).filter fun (escape, _) =>
    match escape with
    | .character code => mode.unicode || code < 0x80
    | _ => true

/-- The letters of the general categories. -/
def categoryLetters : List Char :=
  ['c', 'l', 'm', 'n', 'p', 's', 'z']

/-- The set of a general category, and what follows its letter. Bytes have none. -/
def category? (mode : Mode) (chars : List Char) : Option (Escape × List Char) :=
  match mode.skip chars with
  | [] => none
  | letter :: rest =>
      if mode.unicode && categoryLetters.contains letter.toLower then some (.set, rest)
      else none

/-- The code of the control character that a letter stands for. -/
def controlCode? : Char → Option Nat
  | 'a' => some 0x07
  | 't' => some 0x09
  | 'n' => some 0x0a
  | 'v' => some 0x0b
  | 'f' => some 0x0c
  | 'r' => some 0x0d
  | _ => none

/-- The escape of one character without digits or a name. Where bytes count, a set
must not be the complement of another. Where characters count, the edges of words
are not supported. -/
def letterEscape? (mode : Mode) (c : Char) : Option Escape :=
  if ['d', 's', 'w'].contains c then some .set
  else if ['D', 'S', 'W'].contains c then if mode.unicode then some .set else none
  else if ['A', 'z'].contains c then some .edge
  else if ['b', 'B', '<', '>'].contains c then if mode.unicode then none else some .edge
  else if c.toNat < 0x80 && !c.isAlphanum then some (.character c.toNat)
  else (controlCode? c).map .character

def escape? (mode : Mode) : List Char → Option (Escape × List Char)
  | [] => none
  | 'x' :: rest => byteEscape? mode rest
  | 'u' :: rest => codeEscape? mode 4 rest
  | 'U' :: rest => codeEscape? mode 8 rest
  | 'p' :: rest => category? mode rest
  | 'P' :: rest => category? mode rest
  | c :: rest => (letterEscape? mode c).map fun escape => (escape, rest)

end SourceQuote.Log.Expression

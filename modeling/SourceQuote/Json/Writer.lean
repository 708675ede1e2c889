import SourceQuote.Json.Basic

/-!
Contract: JSON values as text, compact and indented.

Owns: the escapes inside strings and the two layouts. The compact layout has no
blanks at all. The indented layout puts each element and each member on a line
of its own, two spaces deeper than its parent, a space after each colon, and
keeps empty arrays and objects on one line.

In strings `"`, `\`, backspace, form feed, line feed, carriage return and tab
have short escapes, other characters below the space are written `\u00` and two
small hexadecimal digits, and everything else stands as it is.
-/

namespace SourceQuote.Json

def hexDigit (value : Nat) : Char :=
  if value < 10 then Char.ofNat (48 + value) else Char.ofNat (87 + value)

def escapeChar (c : Char) : List Char :=
  if c = '"' then ['\\', '"']
  else if c = '\\' then ['\\', '\\']
  else if c = '\x08' then ['\\', 'b']
  else if c = '\x0c' then ['\\', 'f']
  else if c = '\n' then ['\\', 'n']
  else if c = '\r' then ['\\', 'r']
  else if c = '\t' then ['\\', 't']
  else if c.toNat < 0x20 then
    ['\\', 'u', '0', '0', hexDigit (c.toNat / 16), hexDigit (c.toNat % 16)]
  else [c]

/-- A string in quotes. One that denotes no text is written as an escape for
half of a surrogate pair. -/
def writeString : Option String → List Char
  | none => ['"', '\\', 'u', 'd', '8', '0', '0', '"']
  | some value => '"' :: value.toList.flatMap escapeChar ++ ['"']

def writeNatural (value : Nat) : List Char :=
  Nat.toDigits 10 value

mutual

def write : Json → List Char
  | .null => "null".toList
  | .bool true => "true".toList
  | .bool false => "false".toList
  | .natural value => writeNatural value
  | .number lexeme => lexeme
  | .string value => writeString value
  | .array elements => '[' :: writeElements elements
  | .object members => '\x7b' :: writeMembers members

def writeElements : List Json → List Char
  | [] => [']']
  | [element] => write element ++ [']']
  | element :: next :: rest => write element ++ ',' :: writeElements (next :: rest)

def writeMembers : List (Option String × Json) → List Char
  | [] => ['\x7d']
  | [(key, value)] => writeString key ++ ':' :: (write value ++ ['\x7d'])
  | (key, value) :: next :: rest =>
      writeString key ++ ':' :: (write value ++ ',' :: writeMembers (next :: rest))

end

def newLine (level : Nat) : List Char :=
  '\n' :: List.replicate (2 * level) ' '

mutual

/-- A value in the indented layout, at a level of depth. -/
def writeIndented (level : Nat) : Json → List Char
  | .array [] => ['[', ']']
  | .array (element :: rest) => '[' :: writeIndentedElements level (element :: rest)
  | .object [] => ['\x7b', '\x7d']
  | .object (member :: rest) => '\x7b' :: writeIndentedMembers level (member :: rest)
  | .null => "null".toList
  | .bool true => "true".toList
  | .bool false => "false".toList
  | .natural value => writeNatural value
  | .number lexeme => lexeme
  | .string value => writeString value

/-- The lines of an array's elements and its closing bracket. -/
def writeIndentedElements (level : Nat) : List Json → List Char
  | [] => newLine level ++ [']']
  | [element] =>
      newLine (level + 1) ++ writeIndented (level + 1) element ++ (newLine level ++ [']'])
  | element :: next :: rest =>
      newLine (level + 1) ++ writeIndented (level + 1) element ++
        ',' :: writeIndentedElements level (next :: rest)

/-- The lines of an object's members and its closing brace. -/
def writeIndentedMembers (level : Nat) : List (Option String × Json) → List Char
  | [] => newLine level ++ ['\x7d']
  | [(key, value)] =>
      newLine (level + 1) ++ writeString key ++ ':' :: ' ' ::
        (writeIndented (level + 1) value ++ (newLine level ++ ['\x7d']))
  | (key, value) :: next :: rest =>
      newLine (level + 1) ++ writeString key ++ ':' :: ' ' ::
        (writeIndented (level + 1) value ++
          ',' :: writeIndentedMembers level (next :: rest))

end

def compact (value : Json) : String :=
  String.ofList (write value)

def pretty (value : Json) : String :=
  String.ofList (writeIndented 0 value)

end SourceQuote.Json

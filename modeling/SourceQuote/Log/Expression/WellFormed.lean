import SourceQuote.Log.Expression.CharacterClass
import SourceQuote.Log.Expression.Opening

/-!
Contract: which texts are regular expressions.

Owns: reading an expression from left to right, and whether one is well-formed.

Of an expression only the form counts here: groups and classes are closed, every
repetition has something to repeat, every escape is a known one, no two groups have
the same name, and nothing is nested too deep. A brace cannot be closed within a
filter, so one that would count a repetition is refused.

Does not own: what an expression matches.
-/

namespace SourceQuote.Log.Expression

inductive Part where
  /-- A change of the mode, which cannot be repeated. -/
  | change
  | item (height : Nat)
deriving DecidableEq, Repr

def Part.height : Part → Nat
  | .change => 0
  | .item height => height

structure Content where
  /-- The heights of the branches before the last bar. -/
  branches : List Nat
  /-- The parts after it, the last one first. -/
  parts : List Part

namespace Content

def empty : Content :=
  ⟨[], []⟩

def add (content : Content) (part : Part) : Content :=
  { content with parts := part :: content.parts }

def branchHeight (content : Content) : Nat :=
  Nesting.together (content.parts.map Part.height)

def height (content : Content) : Nat :=
  Nesting.together (content.branchHeight :: content.branches)

def nextBranch (content : Content) : Content :=
  ⟨content.branchHeight :: content.branches, []⟩

/-- Puts a repetition around the last part, if there is one to repeat. -/
def repeated? (content : Content) : Option Content :=
  match content.parts with
  | .item height :: rest => some { content with parts := .item (height + 1) :: rest }
  | _ => none

end Content

structure Reading where
  mode : Mode
  content : Content
  /-- The groups around the one that is being read, with the mode after them, the
  innermost first. -/
  outer : List (Mode × Content)
  /-- The names of groups so far. -/
  names : List String

namespace Reading

def initial : Reading :=
  ⟨.initial, .empty, [], []⟩

def add (reading : Reading) (height : Nat) : Reading :=
  { reading with content := reading.content.add (.item height) }

def enter (reading : Reading) (mode : Mode) : Reading :=
  { reading with
    mode := mode
    content := .empty
    outer := (reading.mode, reading.content) :: reading.outer }

/-- Takes up what a parenthesis has opened; none if the name of a group is taken. -/
def opened? (reading : Reading) : Opening → Option Reading
  | .change mode =>
      some { reading with mode := mode, content := reading.content.add .change }
  | .group none mode => some (reading.enter mode)
  | .group (some name) mode =>
      if reading.names.contains name then none
      else some { reading.enter mode with names := name :: reading.names }

def closed? (reading : Reading) : Option Reading :=
  match reading.outer with
  | [] => none
  | (mode, content) :: outer =>
      some { reading with
        mode := mode
        content := content.add (.item (reading.content.height + 1))
        outer := outer }

/-- Characters without a question mark right in front, which makes a repetition take
as little as it can. -/
def dropLazy : List Char → List Char
  | '?' :: rest => rest
  | chars => chars

/-- Repeats the last part, and gives what follows the sign of the repetition. -/
def repeated? (reading : Reading) (rest : List Char) : Option (Reading × List Char) :=
  reading.content.repeated?.map fun content =>
    ({ reading with content := content }, dropLazy rest)

/-- Reads the next part and gives what follows it. Where bytes count, a dot would
stand for bytes that are no characters. -/
def step? (reading : Reading) (c : Char) (rest : List Char) : Option (Reading × List Char) :=
  match c with
  | '(' => do
      let (opening, rest) ← opening? reading.mode rest
      let reading ← reading.opened? opening
      return (reading, rest)
  | ')' => reading.closed?.map fun reading => (reading, rest)
  | '|' => some ({ reading with content := reading.content.nextBranch }, rest)
  | '[' => (characterClass? reading.mode rest).map fun (height, rest) =>
      (reading.add height, rest)
  | '?' => reading.repeated? rest
  | '*' => reading.repeated? rest
  | '+' => reading.repeated? rest
  | '\x7b' => none
  | '\\' => (escape? reading.mode rest).map fun (_, rest) => (reading.add 0, rest)
  | '.' => if reading.mode.unicode then some (reading.add 0, rest) else none
  | _ => some (reading.add 0, rest)

/-- The height of an expression, once its rest is read; none if it is malformed. -/
def finish? : Nat → Reading → List Char → Option Nat
  | 0, _, _ => none
  | fuel + 1, reading, chars =>
      match reading.mode.skip chars with
      | [] => if reading.outer.isEmpty then some reading.content.height else none
      | c :: rest => (reading.step? c rest).bind fun (reading, rest) =>
          finish? fuel reading rest

end Reading

/-- Whether a text is a regular expression. Every step takes a character at least. -/
def isWellFormed (text : String) : Bool :=
  (Reading.initial.finish? (text.length + 1) text.toList).any (· ≤ Nesting.limit)

end SourceQuote.Log.Expression

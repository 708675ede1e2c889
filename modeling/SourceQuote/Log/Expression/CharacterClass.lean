import SourceQuote.Log.Expression.Escape
import SourceQuote.Nesting

/-!
Contract: the classes of regular expressions, in square brackets.

Owns: reading a class with its ranges, named classes, nested classes and operators,
and its height.

Where bytes count, a class holds ASCII characters only and is not the complement of
another.
-/

namespace SourceQuote.Log.Expression

/-- The code of a character, unless it is not allowed in a class. -/
def memberCode? (mode : Mode) (code : Nat) : Option Nat :=
  if mode.unicode || code < 0x80 then some code else none

/-- One member of a class, and what follows it: the code of a character, or a set. -/
def classMember? (mode : Mode) : List Char → Option (Option Nat × List Char)
  | [] => none
  | '\\' :: rest =>
      match escape? mode rest with
      | some (.character code, rest) => (memberCode? mode code).map fun code => (some code, rest)
      | some (.set, rest) => some (none, rest)
      | _ => none
  | c :: rest => (memberCode? mode c.toNat).map fun code => (some code, rest)

/-- What follows a member of a class, or a range of two of them. A dash before a
bracket or another dash makes no range. A range holds characters only and does not
run backwards. -/
def afterRange? (mode : Mode) (chars : List Char) : Option (List Char) := do
  let (low, rest) ← classMember? mode chars
  match mode.skip rest with
  | '-' :: more =>
      if [some ']', some '-'].contains (mode.glimpse? more) then
        some ('-' :: more)
      else
        let (high, rest) ← classMember? mode (mode.skip more)
        match low, high with
        | some low, some high => if low ≤ high then some rest else none
        | _, _ => none
  | rest => some rest

def classNames : List String :=
  ["alnum", "alpha", "ascii", "blank", "cntrl", "digit", "graph", "lower", "print",
    "punct", "space", "upper", "word", "xdigit"]

/-- Whether a caret comes next, and what follows it. -/
def caret : List Char → Bool × List Char
  | '^' :: rest => (true, rest)
  | chars => (false, chars)

/-- Whether a named class is a complement, and what follows it, after the bracket
that opens it; none if it is no named class. -/
def namedClass? : List Char → Option (Bool × List Char)
  | ':' :: rest =>
      let (negated, rest) := caret rest
      let name := String.ofList (rest.takeWhile (· ≠ ':'))
      match rest.dropWhile (· ≠ ':') with
      | ':' :: ']' :: after => if classNames.contains name then some (negated, after) else none
      | _ => none
  | _ => none

structure OpenClass where
  /-- The height of what stands before the last operator, if there is one. -/
  left : Option Nat
  /-- The heights of the members after it, the last one first. -/
  members : List Nat

namespace OpenClass

def ofCount (count : Nat) : OpenClass :=
  ⟨none, List.replicate count 0⟩

def add (opened : OpenClass) (height : Nat) : OpenClass :=
  { opened with members := height :: opened.members }

/-- The height of what the brackets are around. -/
def innerHeight (opened : OpenClass) : Nat :=
  match opened.left with
  | none => Nesting.together opened.members
  | some left => max left (Nesting.together opened.members) + 1

def height (opened : OpenClass) : Nat :=
  opened.innerHeight + 1

/-- What has been read becomes the left side of an operator. -/
def beforeOperator (opened : OpenClass) : OpenClass :=
  ⟨some opened.innerHeight, []⟩

end OpenClass

/-- The number of dashes that come next, after those that have been counted, and
what follows them. -/
def dashes (mode : Mode) (count : Nat) : List Char → Nat × List Char
  | '-' :: rest => dashes mode (count + 1) (mode.skip rest)
  | chars => (count, chars)
termination_by chars => chars.length
decreasing_by exact Nat.lt_succ_of_le (mode.length_skip_le rest)

/-- Opens a class, after its bracket. Dashes at its start stand for themselves, and so
does a bracket that closes nothing yet. -/
def openClass? (mode : Mode) (chars : List Char) : Option (OpenClass × List Char) :=
  let (negated, chars) := caret (mode.skip chars)
  let chars := mode.skip chars
  if negated && !mode.unicode then none
  else
    match chars with
    | ']' :: rest => some (.ofCount 1, rest)
    | chars =>
        let (count, rest) := dashes mode 0 chars
        some (.ofCount count, rest)

/-- The height of a class and what follows it, with the classes around the one that
is being read, the innermost first. -/
def classRest? (mode : Mode) :
    Nat → OpenClass → List OpenClass → List Char → Option (Nat × List Char)
  | 0, _, _, _ => none
  | fuel + 1, opened, outer, chars =>
      match mode.skip chars with
      | [] => none
      | '[' :: rest =>
          match namedClass? rest with
          | some (negated, rest) =>
              if negated && !mode.unicode then none
              else classRest? mode fuel (opened.add 0) outer rest
          | none =>
              (openClass? mode rest).bind fun (inner, rest) =>
                classRest? mode fuel inner (opened :: outer) rest
      | ']' :: rest =>
          match outer with
          | [] => some (opened.height, rest)
          | around :: outer => classRest? mode fuel (around.add opened.height) outer rest
      | '&' :: '&' :: rest => classRest? mode fuel opened.beforeOperator outer rest
      | '-' :: '-' :: rest => classRest? mode fuel opened.beforeOperator outer rest
      | '~' :: '~' :: rest => classRest? mode fuel opened.beforeOperator outer rest
      | chars =>
          (afterRange? mode chars).bind fun rest =>
            classRest? mode fuel (opened.add 0) outer rest

/-- The height of a class and what follows it, after its bracket. Every step takes a
character at least. -/
def characterClass? (mode : Mode) (chars : List Char) : Option (Nat × List Char) :=
  (openClass? mode chars).bind fun (opened, rest) =>
    classRest? mode (rest.length + 1) opened [] rest

end SourceQuote.Log.Expression

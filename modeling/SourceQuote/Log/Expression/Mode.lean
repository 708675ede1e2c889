import SourceQuote.Text.Blank

/-!
Contract: the two ways to read a regular expression.

Owns: the mode, and what is passed over between the parts of an expression.

In an expression with free spacing blanks stand for nothing, and neither does a
comment, which runs from a number sign to the end of the line. An expression may
speak about whole characters or about single bytes; in the latter case it must not
ask for a byte that is no character of its own.
-/

namespace SourceQuote.Log.Expression

open SourceQuote.Text

/-- How an expression is read. -/
structure Mode where
  /-- Whether blanks and comments are passed over. -/
  freeSpacing : Bool
  /-- Whether the expression speaks about whole characters. -/
  unicode : Bool
deriving DecidableEq, Repr

def Mode.initial : Mode :=
  ⟨false, true⟩

/-- Characters without the blanks and comments in front of them. -/
def dropNotes (inComment : Bool) : List Char → List Char
  | [] => []
  | c :: rest =>
      if inComment then dropNotes (c ≠ '\n') rest
      else if isBlank c then dropNotes false rest
      else if c = '#' then dropNotes true rest
      else c :: rest

/-- Nothing is added in front of characters. -/
theorem length_dropNotes_le (inComment : Bool) (chars : List Char) :
    (dropNotes inComment chars).length ≤ chars.length := by
  induction chars generalizing inComment with
  | nil => simp [dropNotes]
  | cons c rest inductionHypothesis =>
      have shorter (inComment : Bool) :
          (dropNotes inComment rest).length ≤ (c :: rest).length :=
        Nat.le_succ_of_le (inductionHypothesis inComment)
      unfold dropNotes
      split
      · exact shorter _
      · split
        · exact shorter _
        · split
          · exact shorter _
          · exact Nat.le_refl _

/-- The characters that come next in a mode. -/
def Mode.skip (mode : Mode) (chars : List Char) : List Char :=
  if mode.freeSpacing then dropNotes false chars else chars

/-- To pass over something adds no characters. -/
theorem Mode.length_skip_le (mode : Mode) (chars : List Char) :
    (mode.skip chars).length ≤ chars.length := by
  unfold Mode.skip
  split
  · exact length_dropNotes_le false chars
  · exact Nat.le_refl _

/-- The character that follows the dash of a class, as far as the dash can see: with
free spacing it looks past blanks and past one number sign. -/
def Mode.glimpse? (mode : Mode) (chars : List Char) : Option Char :=
  if mode.freeSpacing then
    match chars.dropWhile isBlank with
    | '#' :: rest => (rest.dropWhile isBlank).head?
    | rest => rest.head?
  else
    chars.head?

end SourceQuote.Log.Expression

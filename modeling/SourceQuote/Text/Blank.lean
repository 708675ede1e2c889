/-!
Contract: blank characters and the trimming of text.

Owns: the blank characters (the Unicode property White_Space), trimming at
either end, the pieces of a text between separators, and replacement of one
character by another.

Does not own: the blanks that a data format allows between its tokens; those
are a smaller set and stand with the format.
-/

namespace SourceQuote.Text

/-- Whether a character is blank: it has the Unicode property White_Space. -/
def isBlank (c : Char) : Bool :=
  let code := c.toNat
  (0x9 ≤ code && code ≤ 0xD) || code == 0x20 || code == 0x85 || code == 0xA0 ||
    code == 0x1680 || (0x2000 ≤ code && code ≤ 0x200A) || code == 0x2028 ||
    code == 0x2029 || code == 0x202F || code == 0x205F || code == 0x3000

def trimStart (text : String) : String :=
  String.ofList (text.toList.dropWhile isBlank)

def trimEnd (text : String) : String :=
  String.ofList (text.toList.reverse.dropWhile isBlank).reverse

def trim (text : String) : String :=
  trimEnd (trimStart text)

/-- The pieces of a text between the separators: one more than there are
separators, some of them possibly empty. -/
def pieces (separator : Char) : List Char → List (List Char)
  | [] => [[]]
  | c :: rest =>
      if c = separator then
        [] :: pieces separator rest
      else
        match pieces separator rest with
        | [] => [[c]]
        | first :: others => (c :: first) :: others

/-- Writes pieces with a separator between neighbours. It undoes `pieces`. -/
def joinPieces (separator : Char) : List (List Char) → List Char
  | [] => []
  | [piece] => piece
  | piece :: next :: others => piece ++ separator :: joinPieces separator (next :: others)

/-- A text is never cut into no pieces at all. -/
theorem pieces_ne_nil (separator : Char) (chars : List Char) :
    pieces separator chars ≠ [] := by
  induction chars with
  | nil => simp [pieces]
  | cons c rest inductionHypothesis =>
      unfold pieces
      split
      · simp
      · split <;> simp

/-- Joining the pieces of a text gives the text back. -/
theorem joinPieces_pieces (separator : Char) (chars : List Char) :
    joinPieces separator (pieces separator chars) = chars := by
  induction chars with
  | nil => rfl
  | cons c rest inductionHypothesis =>
      unfold pieces
      split
      · next same =>
          match cut : pieces separator rest with
          | [] => exact absurd cut (pieces_ne_nil separator rest)
          | first :: others =>
              rw [cut] at inductionHypothesis
              simp [joinPieces, inductionHypothesis, same]
      · match cut : pieces separator rest with
        | [] => exact absurd cut (pieces_ne_nil separator rest)
        | [first] =>
            rw [cut] at inductionHypothesis
            simpa [joinPieces] using inductionHypothesis
        | first :: second :: others =>
            rw [cut] at inductionHypothesis
            simpa [joinPieces] using inductionHypothesis

def replaceChar (text : String) (old new : Char) : String :=
  String.ofList (text.toList.map fun c => if c = old then new else c)

/-- A text with its ASCII capitals made small; all other characters stay. -/
def lowerAscii (text : String) : String :=
  String.ofList (text.toList.map Char.toLower)

end SourceQuote.Text

import SourceQuote.Glob.Basic

/-!
Contract: the written form of patterns.

Owns: reading a pattern from its text.

The text is read from left to right, one character a step. `?`, `*`, `[…]` and
`{…,…}` have their meaning everywhere outside a class; a backslash takes it from
the next character. Two stars stand for any directories where they fill the space
between two slashes, or between a slash and an end of the pattern or of a branch;
everywhere else they are two single stars. A brace or a backslash that is left
open, a brace that closes nothing and a range that runs backwards are refused. A
class that is left open is refused too, or else its bracket and all brackets
after it stand for themselves; which of the two is for the caller to say.
-/

namespace SourceQuote.Glob

/-- What the reader is in the middle of. -/
inductive Mode where
  | plain
  /-- Right after a backslash. -/
  | escape
  /-- Right after one star; `before` is the character before it. -/
  | star (before : Option Char)
  /-- Right after two stars; `before` is the character before them. -/
  | stars (before : Option Char)
  /-- Right after the bracket that opens a class. -/
  | classStart
  /-- In a class with some ranges, the last one first; `fresh` before the first
  of them, `inRange` right after the dash of a range. -/
  | inClass (negated fresh inRange : Bool) (ranges : List (Char × Char))

/-- A brace that is open: the pieces before it, and the branches read since, the
last ones first. -/
structure OpenBrace where
  before : List GlobPiece
  branches : List (List GlobPiece)

/-- What becomes of a bracket whose class is never closed. -/
inductive OpenClass where
  | refused
  /-- The bracket stands for itself. -/
  | literal
deriving DecidableEq, Repr

structure Progress where
  /-- The pieces of the pattern or branch that is being read, the last one
  first. -/
  current : List GlobPiece
  /-- The open braces, the innermost one first. -/
  braces : List OpenBrace
  /-- The character read last. -/
  last : Option Char
  mode : Mode
  /-- Whether a bracket opens a class. -/
  hasClasses : Bool
  /-- The characters from the last bracket that opened a class on, the last one
  first. -/
  sinceBracket : List Char

namespace Progress

def start : Progress :=
  ⟨[], [], none, .plain, true, []⟩

def push (progress : Progress) (piece : GlobPiece) : Progress :=
  { progress with current := piece :: progress.current, mode := .plain }

def within (progress : Progress) (mode : Mode) : Progress :=
  { progress with mode := mode }

def isInBraces (progress : Progress) : Bool :=
  !progress.braces.isEmpty

def pushTwoRuns (progress : Progress) : Progress :=
  (progress.push .run).push .run

/-- Puts a piece in the place of the last one, which is the slash before two
stars; a tree that is there already covers the new one. -/
def replaceSlash (progress : Progress) (piece : GlobPiece) : Progress :=
  match progress.current with
  | .leadingTree :: _ => progress.within .plain
  | .trailingTree :: _ => progress.within .plain
  | _ :: rest => { progress with current := piece :: rest, mode := .plain }
  | [] => progress.push piece

/-- Whether two stars after a character may stand for directories. -/
def mayFollow (progress : Progress) (before : Option Char) : Bool :=
  before = some '/' ||
    (progress.isInBraces && (before = some ',' || before = some '\x7b'))

/-- Ends the two stars before the end of the text. -/
def endStars (progress : Progress) (before : Option Char) : Progress :=
  if progress.current.isEmpty then progress.push .leadingTree
  else if progress.mayFollow before then progress.replaceSlash .trailingTree
  else progress.pushTwoRuns

/-- A character outside of classes and not after a star. -/
def plainStep (progress : Progress) (c : Char) : Option Progress :=
  if c = '?' then some (progress.push .anyByte)
  else if c = '*' then some (progress.within (.star progress.last))
  else if c = '[' && progress.hasClasses then
    some { progress with mode := .classStart, sinceBracket := [] }
  else if c = '\x7b' then
    some { progress with
      current := []
      braces := ⟨progress.current, []⟩ :: progress.braces
      mode := .plain }
  else if c = '\x7d' then
    match progress.braces with
    | [] => none
    | brace :: outer =>
        let branches := (progress.current.reverse :: brace.branches).reverse
        some { progress with
          current := .alternatives branches :: brace.before
          braces := outer
          mode := .plain }
  else if c = ',' then
    match progress.braces with
    | [] => some (progress.push (.literal ','))
    | brace :: outer =>
        some { progress with
          current := []
          braces := ⟨brace.before, progress.current.reverse :: brace.branches⟩ :: outer
          mode := .plain }
  else if c = '\\' then some (progress.within .escape)
  else some (progress.push (.literal c))

def starsStep (progress : Progress) (before : Option Char) (c : Char) : Option Progress :=
  if progress.current.isEmpty then
    if c = '/' then some (progress.push .leadingTree)
    else progress.pushTwoRuns.plainStep c
  else if progress.mayFollow before then
    if c = '/' then some (progress.replaceSlash .innerTree)
    else if progress.isInBraces && (c = ',' || c = '\x7d') then
      (progress.replaceSlash .trailingTree).plainStep c
    else progress.pushTwoRuns.plainStep c
  else
    progress.pushTwoRuns.plainStep c

/-- Ends the last range of a class at a character, unless it runs backwards. -/
def endRange : List (Char × Char) → Char → Option (List (Char × Char))
  | [], c => some [(c, c)]
  | (low, _) :: rest, c => if c < low then none else some ((low, c) :: rest)

def classStep (progress : Progress) (negated fresh inRange : Bool)
    (ranges : List (Char × Char)) (c : Char) : Option Progress :=
  if c = ']' && !fresh then
    let ranges := if inRange then ('-', '-') :: ranges else ranges
    some (progress.push (.oneOf negated ranges.reverse))
  else if inRange then
    (endRange ranges c).map fun ranges =>
      progress.within (.inClass negated false false ranges)
  else if c = '-' && !fresh then
    some (progress.within (.inClass negated false true ranges))
  else
    some (progress.within (.inClass negated false false ((c, c) :: ranges)))

/-- What a character does to what the reader is in the middle of; none if the text
is refused. -/
def read (progress : Progress) (c : Char) : Option Progress :=
  match progress.mode with
  | .plain => progress.plainStep c
  | .escape => some (progress.push (.literal c))
  | .star before =>
      if c = '*' then some (progress.within (.stars before))
      else (progress.push .run).plainStep c
  | .stars before => progress.starsStep before c
  | .classStart =>
      if c = '!' || c = '^' then some (progress.within (.inClass true true false []))
      else progress.classStep false true false [] c
  | .inClass negated fresh inRange ranges =>
      progress.classStep negated fresh inRange ranges c

/-- One step of the reader; none if the text is refused. -/
def step (progress : Progress) (c : Char) : Option Progress :=
  (progress.read c).map fun next : Progress =>
    { next with last := some c, sinceBracket := c :: next.sinceBracket }

/-- The end of the text; none if something is still open. -/
def finish (progress : Progress) : Option Glob :=
  if progress.isInBraces then none
  else
    match progress.mode with
    | .plain => some ⟨progress.current.reverse⟩
    | .star _ => some ⟨(progress.push .run).current.reverse⟩
    | .stars before => some ⟨(progress.endStars before).current.reverse⟩
    | _ => none

def isInClass (progress : Progress) : Bool :=
  match progress.mode with
  | .classStart => true
  | .inClass _ _ _ _ => true
  | _ => false

/-- Reads the text from the bracket of an open class on once more, with brackets
that stand for themselves. -/
def withoutClass (progress : Progress) : Option Progress :=
  progress.sinceBracket.reverse.foldlM step
    { progress with mode := .plain, hasClasses := false }

end Progress

/-- Reads a pattern; none if it is malformed. -/
def parse? (openClass : OpenClass) (text : String) : Option Glob := do
  let progress ← text.toList.foldlM Progress.step Progress.start
  if progress.isInClass && openClass = .literal then
    let again ← progress.withoutClass
    again.finish
  else
    progress.finish

end SourceQuote.Glob

import SourceQuote.Error
import SourceQuote.Path.Basic
import SourceQuote.Scan.Rule

/-!
Contract: the selection, the patterns that a configuration chooses files by.

Owns: the rules of a selection, and its verdict.

Patterns that include come first, then those that exclude, then the directories to
skip; the latter two are written as negated rules. In a selection a rule keeps and
a negated rule drops, an open class makes a pattern malformed, and a pattern that is
nested too deep is refused. Once something
is included, a file that no rule is about is dropped; a directory is not, since
files below it may be included.
-/

namespace SourceQuote

open SourceQuote.Text

structure Selection where
  rules : List Rule

namespace Selection

/-- A text without the `./` that it starts with, however often. -/
def dropHere : List Char → List Char
  | '.' :: '/' :: rest => dropHere rest
  | text => text

/-- The pattern that a setting holds, none if it is blank. -/
def pattern? (setting : String) : Option String :=
  match dropHere (trim setting).toList with
  | [] => none
  | pattern => some (String.ofList pattern)

/-- The line for a directory to skip, none if it is the project or not below it. -/
def skipLine? (project directory : String) : Option String :=
  match Path.below? directory project with
  | none => none
  | some relative =>
      if relative.isEmpty then none else some ("!/" ++ Path.forwardSlashes relative)

def lines (project : String) (included excluded skipped : List String) : List String :=
  included.filterMap pattern? ++ (excluded.filterMap pattern?).map ("!" ++ ·) ++
    skipped.filterMap (skipLine? project)

/-- The rules of some lines; the first malformed line is refused. -/
def rulesOf : List String → Except Error (List Rule)
  | [] => .ok []
  | line :: rest =>
      match Rule.ofLine .refused line with
      | .malformed => .error (.config (.badGlob line))
      | .silent => rulesOf rest
      | .rule rule => (rulesOf rest).map (rule :: ·)

def ofSettings (project : String) (included excluded skipped : List String) :
    Except Error Selection := do
  let rules ← rulesOf (lines project included excluded skipped)
  if Rule.areUsable rules then return ⟨rules⟩ else throw (.config .deepGlobs)

def isSelective (selection : Selection) : Bool :=
  selection.rules.any fun rule => !rule.negated

def verdict? (selection : Selection) (path : String) (isDirectory : Bool) : Option Verdict :=
  match Rule.speaking? selection.rules path isDirectory with
  | some rule => some (if rule.negated then .drop else .keep)
  | none => if selection.isSelective && !isDirectory then some .drop else none

end Selection

end SourceQuote

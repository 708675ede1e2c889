import SourceQuote.Glob.Height
import SourceQuote.Glob.Matching
import SourceQuote.Glob.Reader
import SourceQuote.Text.Blank

/-!
Contract: rules, the lines that ignore files and selections are made of.

Owns: reading a line as a rule, and which of several rules speaks about a path.

A line that starts with `#` and a blank line hold no rule. Blanks at the end go,
unless the last is escaped. A `!` in front negates the rule, a slash in front ties
it to the directory that the rules belong to, and so does a slash inside; without
one the rule holds at every depth below it. A slash at the end makes it a rule for
directories only. Of several rules about a path the last one speaks. A pattern that is
nested too deep makes all rules beside it useless.
-/

namespace SourceQuote

open SourceQuote.Text

structure Rule where
  glob : Glob
  /-- Whether the rule was written with a `!` in front. -/
  negated : Bool
  directoriesOnly : Bool

namespace Rule

/-- What is left of a line's text once the marks around its pattern are gone. -/
structure Written where
  pattern : List Char
  negated : Bool
  anchored : Bool
  directoriesOnly : Bool

/-- Takes the marks off the front of a line. -/
def Written.ofLine : List Char → Written
  | '\\' :: '!' :: rest => ⟨'!' :: rest, false, false, false⟩
  | '\\' :: '#' :: rest => ⟨'#' :: rest, false, false, false⟩
  | '!' :: '/' :: rest => ⟨rest, true, true, false⟩
  | '!' :: rest => ⟨rest, true, false, false⟩
  | '/' :: rest => ⟨rest, false, true, false⟩
  | line => ⟨line, false, false, false⟩

/-- Takes a slash off the end, with the backslash that escaped it. -/
def Written.withoutSlash (written : Written) : Written :=
  match written.pattern.reverse with
  | '/' :: '\\' :: rest =>
      { written with pattern := rest.reverse, directoriesOnly := true }
  | '/' :: rest => { written with pattern := rest.reverse, directoriesOnly := true }
  | _ => written

/-- The pattern for whole paths: one that is tied to no directory holds at every
depth, and one that ends in `/**` speaks only about what is inside. -/
def Written.wholePattern (written : Written) : List Char :=
  let pattern :=
    if written.anchored || written.pattern.contains '/' || written.pattern = ['*', '*'] then
      written.pattern
    else
      ['*', '*', '/'] ++ written.pattern
  if ['/', '*', '*'].isSuffixOf pattern then pattern ++ ['/', '*'] else pattern

/-- A line without the blanks at its end, unless the last one is escaped. -/
def trimLine (line : List Char) : List Char :=
  if ['\\', ' '].isSuffixOf line then line else (trimEnd (String.ofList line)).toList

inductive Line where
  | silent
  | rule (rule : Rule)
  | malformed

def ofLine (openClass : Glob.OpenClass) (line : String) : Line :=
  if line.toList.head? = some '#' then .silent
  else
    match trimLine line.toList with
    | [] => .silent
    | trimmed =>
        let written := (Written.ofLine trimmed).withoutSlash
        match Glob.parse? openClass (String.ofList written.wholePattern) with
        | none => .malformed
        | some glob => .rule ⟨glob, written.negated, written.directoriesOnly⟩

/-- Whether no pattern of some rules is nested too deep. Rules are used together, so
one such pattern makes all of them useless. -/
def areUsable (rules : List Rule) : Bool :=
  rules.all fun rule => rule.glob.isWithinLimit

def isAbout (rule : Rule) (path : String) (isDirectory : Bool) : Bool :=
  (isDirectory || !rule.directoriesOnly) && rule.glob.accepts path

/-- The rule that speaks about a path: the last one that is about it. -/
def speaking? (rules : List Rule) (path : String) (isDirectory : Bool) : Option Rule :=
  rules.reverse.find? fun rule => rule.isAbout path isDirectory

end Rule

inductive Verdict where
  | keep
  | drop
deriving DecidableEq, Repr

end SourceQuote

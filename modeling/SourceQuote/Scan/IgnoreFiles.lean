import SourceQuote.FileSystem.Basic
import SourceQuote.Scan.Rule
import SourceQuote.Text.Line

/-!
Contract: ignore files, rules that stand in the directories they are about.

Owns: their names, their text, where the exclusion list of a repository lies, and
the verdict of all of them on a place.

An ignore file speaks about everything below its directory, by the path from
there. In one a rule drops and a negated rule keeps. Files of one name are asked
from the nearest directory to the top, and the names in the order of `names`; then
the exclusion lists of repositories are asked, also from the nearest. The first
answer counts. The rules are collected once for all places, those of the deepest
directories in front.

Does not own: the user's own ignore file, which stands in no directory of the
project.
-/

namespace SourceQuote

open SourceQuote.Text

namespace IgnoreFiles

/-- The names of ignore files, the one that is asked first in front. -/
def names : List String :=
  [".tsqignore", ".ignore", ".gitignore"]

/-- The mark that some editors put at the start of a text. -/
def byteOrderMark : Char := '\ufeff'

/-- The first of several lines without the marks in front. -/
def withoutMark : List String → List String
  | [] => []
  | first :: rest => String.ofList (first.toList.dropWhile (· = byteOrderMark)) :: rest

/-- The rules in the text of an ignore file. Malformed lines hold none; a pattern
that is nested too deep takes all others with it. -/
def rulesIn (content : ByteArray) : List Rule :=
  let rules := (withoutMark (textLines content)).filterMap fun line =>
    match Rule.ofLine .literal line with
    | .rule rule => some rule
    | _ => none
  if Rule.areUsable rules then rules else []

def verdictOf? (rules : List Rule) (path : String) (isDirectory : Bool) : Option Verdict :=
  (Rule.speaking? rules path isDirectory).map fun rule =>
    if rule.negated then .keep else .drop

def linkMark : String := "gitdir: "

def linkTarget? (content : ByteArray) : Option String :=
  (textLines content).head?.bind fun line =>
    if linkMark.toList.isPrefixOf line.toList then
      some (String.ofList (line.toList.drop linkMark.length))
    else
      none

/-- The directory that a linked repository shares with others, by the name in its
file `commondir`. A name with a dot in front is relative to the linked directory. -/
def sharedDirectory? (fs : FileSystem) (here : Location) (target : String) :
    Option String :=
  (fs.read? here (Path.join target "commondir")).bind fun content =>
    (textLines content).head?.map fun line =>
      if line.toList.head? = some '.' then Path.join target line else line

/-- The bytes of the exclusion list of a repository, given what stands at the place
of its directory: the directory itself, or a file that links to it. Links are
relative to `here`, where relative paths start. -/
def exclusionList? (fs : FileSystem) (here place : Location) : Entry → Option ByteArray
  | .directory => fs.content? (place ++ ["info", "exclude"])
  | .file link =>
      ((linkTarget? link).bind (sharedDirectory? fs here)).bind fun shared =>
        fs.read? here (Path.join shared "info/exclude")

structure Site where
  directory : Location
  rules : List Rule

/-- Sites with the deepest directories in front, so that of those that are about a
place the nearest comes first. -/
def deepestFirst (sites : List Site) : List Site :=
  sites.mergeSort fun first second => second.directory.length ≤ first.directory.length

/-- The ignore files of a name, the deepest first. -/
def sites (fs : FileSystem) (name : String) : List Site :=
  deepestFirst <| (fs.filesBelow []).filterMap fun (location, content) =>
    if location.getLast? = some name then some ⟨location.dropLast, rulesIn content⟩ else none

def exclusions (fs : FileSystem) (here : Location) : List Site :=
  deepestFirst <| fs.entries.toList.filterMap fun (location, entry) =>
    if location.getLast? = some ".git" then
      (exclusionList? fs here location entry).map fun content =>
        ⟨location.dropLast, rulesIn content⟩
    else
      none

/-- All rules of ignore files, in groups; the group that is asked first in front. -/
def groups (fs : FileSystem) (here : Location) : List (List Site) :=
  names.map (sites fs) ++ [exclusions fs here]

/-- The names that lead from a directory to a place below it. -/
def below? : Location → Location → Option Location
  | [], [] => none
  | [], location => some location
  | _ :: _, [] => none
  | first :: directory, name :: location =>
      if name = first then below? directory location else none

def Site.verdict? (site : Site) (location : Location) (isDirectory : Bool) :
    Option Verdict :=
  (below? site.directory location).bind fun below =>
    verdictOf? site.rules ("/".intercalate below) isDirectory

def verdict? (groups : List (List Site)) (location : Location) (isDirectory : Bool) :
    Option Verdict :=
  groups.findSome? fun group =>
    group.findSome? fun site => site.verdict? location isDirectory

end IgnoreFiles

end SourceQuote

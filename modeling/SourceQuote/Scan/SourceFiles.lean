import SourceQuote.Dialect
import SourceQuote.FileSystem.Basic
import SourceQuote.Scan.IgnoreFiles
import SourceQuote.Scan.Selection
import SourceQuote.Scan.UserIgnore

/-!
Contract: the source files of a project.

Owns: which files a build reads, and their order.

A file counts if neither it nor a directory between it and the project is dropped,
and if a dialect belongs to its name. The selection decides first, then the ignore
files of the directories, then the user's own, and what none of them decides is
dropped if it is hidden. Files are listed by their relative path.
-/

namespace SourceQuote

structure SourceFile where
  path : String
  /-- The path from the project directory, with forward slashes. -/
  relative : String
  dialect : Dialect
deriving DecidableEq, Repr

namespace Scan

/-- Whether the last of some names starts with a dot. A name that also ends with one
counts as no file name, and so is not hidden. -/
def isHidden (location : Location) : Bool :=
  match location.getLast? with
  | some name => name.toList.head? = some '.' && name.toList.getLast? ≠ some '.'
  | none => false

/-- What decides about the files of a project. -/
structure Judges where
  /-- Where relative paths start. -/
  here : Location
  selection : Selection
  /-- The rules of the ignore files in directories. -/
  ignoreFiles : List (List IgnoreFiles.Site)
  /-- The rules of the user's own ignore file. -/
  userRules : List Rule

/-- The verdict on the place that some names lead to from the project. -/
def Judges.verdict? (judges : Judges) (project below : Location) (isDirectory : Bool) :
    Option Verdict :=
  let location := project ++ below
  (judges.selection.verdict? ("/".intercalate below) isDirectory).or
    ((IgnoreFiles.verdict? judges.ignoreFiles location isDirectory).or
      (IgnoreFiles.verdictOf? judges.userRules (UserIgnore.pathFrom judges.here location)
        isDirectory))

def isDropped (judges : Judges) (project below : Location) (isDirectory : Bool) : Bool :=
  match judges.verdict? project below isDirectory with
  | some .drop => true
  | some .keep => false
  | none => isHidden below

/-- The directories between a project and a place below it. -/
def directoriesAbove : Location → List Location
  | [] => []
  | [_] => []
  | first :: rest => [first] :: (directoriesAbove rest).map (first :: ·)

/-- Whether a file is reached and not dropped. -/
def isKept (judges : Judges) (project below : Location) : Bool :=
  !isDropped judges project below false &&
    (directoriesAbove below).all fun directory => !isDropped judges project directory true

/-- The source file that some names lead to, if a dialect belongs to it. -/
def sourceFile? (project : String) (below : Location) : Option SourceFile :=
  let within := "/".intercalate below
  let relative := Path.forwardSlashes within
  (Dialect.ofPath? relative).map fun dialect =>
    ⟨Path.join project within, relative, dialect⟩

/-- Whether a source file may stand before another. -/
def le (first second : SourceFile) : Bool :=
  compare first.relative second.relative ≠ .gt

def sourceFiles
    (fs : FileSystem)
    (directory : Location)
    (environment : Environment)
    (project : String)
    (included excluded skipped : List String) : Except Error (List SourceFile) := do
  let selection ← Selection.ofSettings project included excluded skipped
  match fs.existing? directory project with
  | none => return []
  | some location =>
      let judges : Judges :=
        ⟨directory, selection, IgnoreFiles.groups fs directory,
          UserIgnore.rules fs directory environment⟩
      let files := (fs.filesBelow location).filterMap fun (below, _) =>
        if below ≠ [] ∧ isKept judges location below then sourceFile? project below
        else none
      return files.mergeSort le

end Scan

end SourceQuote

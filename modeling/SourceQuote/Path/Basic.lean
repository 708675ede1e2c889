import SourceQuote.Text.Blank

/-!
Contract: slash-separated paths as text.

Owns: the components of a path, its file name, stem and extension, its parent,
joining, and the part of a path below a directory.

A path is kept as the text it was written with. Its pieces are the texts between
slashes; an empty piece and an inner `.` stand for no component, so doubled
slashes, trailing slashes and `/./` do not change what a path names.

Does not own: what exists at a path.
-/

namespace SourceQuote.Path

open SourceQuote.Text

/-- What one step of a path does. -/
inductive Component where
  /-- Start at the top of the file system. -/
  | root
  /-- Stay: a `.` at the start of a relative path. -/
  | current
  | parent
  /-- Go down to the entry with this name. -/
  | normal (name : String)
deriving DecidableEq, Repr

/-- The component that a piece after the first one stands for. -/
def Component.ofPiece (piece : List Char) : Option Component :=
  if piece = [] ∨ piece = ['.'] then none
  else if piece = ['.', '.'] then some .parent
  else some (.normal (String.ofList piece))

/-- The component that the first of several pieces stands for: an empty one is
the slash that a path starts with. -/
def Component.ofFirstPiece (piece : List Char) (alone : Bool) : Option Component :=
  if piece = [] then (if alone then none else some .root)
  else if piece = ['.'] then some .current
  else Component.ofPiece piece

/-- A piece of a path with the component it stands for, if any. -/
abbrev Step := List Char × Option Component

/-- The pieces of a path with their components. -/
def stepsOfPieces : List (List Char) → List Step
  | [] => []
  | first :: rest =>
      (first, Component.ofFirstPiece first rest.isEmpty) ::
        rest.map fun piece => (piece, Component.ofPiece piece)

def steps (path : String) : List Step :=
  stepsOfPieces (pieces '/' path.toList)

def components (path : String) : List Component :=
  (steps path).filterMap Prod.snd

/-- The text of some consecutive steps of a path. -/
def textOf (part : List Step) : String :=
  String.ofList (joinPieces '/' (part.map Prod.fst))

/-- Drops the steps at the end that stand for no component. -/
def trimSteps (all : List Step) : List Step :=
  (all.reverse.dropWhile fun step => step.2.isNone).reverse

/-- The path without its last component, empty if nothing is left. -/
def parent (path : String) : String :=
  match trimSteps (trimSteps (steps path)).dropLast with
  | [(_, some .root)] => "/"
  | rest => textOf rest

def isAbsolute (path : String) : Bool :=
  path.toList.head? = some '/'

/-- The name of the file that a path ends in; none if it ends in `..`, at the
root, or nowhere. -/
def fileName? (path : String) : Option String :=
  match (components path).getLast? with
  | some (.normal name) => some name
  | _ => none

/-- A file name cut at its last dot into stem and extension. A name whose only
dot comes first has no extension. -/
def splitName (name : List Char) : List Char × Option (List Char) :=
  let after := (name.reverse.takeWhile (· ≠ '.')).reverse
  let before := name.take (name.length - after.length - 1)
  if after.length = name.length ∨ before = [] then (name, none) else (before, some after)

/-- The extension of a path's file name, without its dot. -/
def extension? (path : String) : Option String :=
  (fileName? path).bind fun name => (splitName name.toList).2.map String.ofList

/-- A path cut right after the stem of its file name, so that an extension and
all slashes after the name are gone. A path without a file name stays. -/
def withoutExtension (path : String) : String :=
  match fileName? path with
  | none => path
  | some name =>
      let kept := (trimSteps (steps path)).dropLast.map Prod.fst
      String.ofList (joinPieces '/' (kept ++ [(splitName name.toList).1]))

/-- A path below another. An absolute path stands alone; otherwise one slash
comes between the two unless the first is empty or ends with one. -/
def join (base path : String) : String :=
  if isAbsolute path then path
  else if base.isEmpty then path
  else if base.toList.getLast? = some '/' then base ++ path
  else base ++ "/" ++ path

/-- Drops as many steps as spell the given components. -/
def dropComponents : List Step → List Component → Option (List Step)
  | rest, [] => some rest
  | [], _ :: _ => none
  | (_, none) :: rest, wanted => dropComponents rest wanted
  | (_, some component) :: rest, expected :: wanted =>
      if component = expected then dropComponents rest wanted else none

/-- The part of `path` below `base`, none if `path` does not begin with the
components of `base`. Pieces at either end that stand for nothing are dropped. -/
def below? (path base : String) : Option String :=
  (dropComponents (steps path) (components base)).map fun rest =>
    textOf (trimSteps (rest.dropWhile fun step => step.2.isNone))

def normalNames (parts : List Component) : List String :=
  parts.filterMap fun
    | .normal name => some name
    | _ => none

def forwardSlashes (path : String) : String :=
  replaceChar path '\\' '/'

/-- The dotted module name of the file at a path: the names along the path, the
last one without its extension. -/
def moduleName (path : String) : String :=
  ".".intercalate (normalNames (components (withoutExtension (forwardSlashes path))))

end SourceQuote.Path

import SourceQuote.Path.Basic
import Std.Data.ExtTreeMap

/-!
Contract: the file system as a value.

Owns: files and directories by their place below the top; how a path leads to a
place; reading, writing, creating directories and deleting.

A path is followed piece by piece: each step must start in a directory that
exists, `..` goes up from where the path has led so far, and a slash at the end
asks for a directory. The empty path leads nowhere, and neither does one with a
NUL or with a name of more than 255 bytes. A path of 4096 bytes or more can be
followed to see where it leads, but nothing can be done with it. There are no
links. An operation that fails gives none and changes nothing, except that the
directories above a file stay when the file cannot be written.

Does not own: permissions, times, and anything else about a file but its bytes.
-/

namespace SourceQuote

open SourceQuote.Text

inductive Entry where
  | file (content : ByteArray)
  | directory

/-- A place: the names that lead to it from the top. -/
abbrev Location := List String

/-- Files and directories by place. The top is always a directory. File systems with
the same entries are equal. -/
structure FileSystem where
  entries : Std.ExtTreeMap Location Entry

namespace FileSystem

def empty : FileSystem :=
  ⟨∅⟩

def entry? (fs : FileSystem) (location : Location) : Option Entry :=
  if location = [] then some .directory else fs.entries[location]?

def isDirectory (fs : FileSystem) (location : Location) : Bool :=
  match fs.entry? location with
  | some .directory => true
  | _ => false

def content? (fs : FileSystem) (location : Location) : Option ByteArray :=
  match fs.entry? location with
  | some (.file content) => some content
  | _ => none

def put (fs : FileSystem) (location : Location) (entry : Entry) : FileSystem :=
  ⟨fs.entries.insert location entry⟩

/-- Whether a piece of a path stays where it is. -/
def staysPut (piece : List Char) : Bool :=
  piece = [] || piece = ['.']

/-- The place that pieces of a path lead to from a place. -/
def follow (fs : FileSystem) (location : Location) : List (List Char) → Option Location
  | [] => some location
  | piece :: rest =>
      if fs.isDirectory location then
        if staysPut piece then fs.follow location rest
        else if piece = ['.', '.'] then fs.follow location.dropLast rest
        else fs.follow (location ++ [String.ofList piece]) rest
      else
        none

/-- Where a path starts, and its pieces from there on. -/
def origin (directory : Location) (path : String) : Location × List (List Char) :=
  if Path.isAbsolute path then ([], pieces '/' path.toList)
  else (directory, pieces '/' path.toList)

def nameLimit : Nat := 255

/-- Whether a piece of a path is short enough for a name. -/
def fitsName (piece : List Char) : Bool :=
  (String.ofList piece).utf8ByteSize ≤ nameLimit

/-- The number of bytes at which a path is too long for an operation. -/
def pathLimit : Nat := 4096

/-- Whether an operation takes a path at all: it is short enough and holds no
NUL. -/
def isAcceptable (path : String) : Bool :=
  path.utf8ByteSize < pathLimit && !path.toList.contains '\x00'

def isAdmissible (path : String) : Bool :=
  !path.isEmpty && !path.toList.contains '\x00' && (pieces '/' path.toList).all fitsName

/-- The place that a path of any length leads to from a directory; the last step
may lead to where nothing stands yet. -/
def destination? (fs : FileSystem) (directory : Location) (path : String) :
    Option Location :=
  if isAdmissible path then
    let (start, steps) := origin directory path
    fs.follow start steps
  else
    none

/-- The place that the path of an operation leads to from a directory. -/
def resolve? (fs : FileSystem) (directory : Location) (path : String) : Option Location :=
  if isAcceptable path then fs.destination? directory path else none

def read? (fs : FileSystem) (directory : Location) (path : String) : Option ByteArray :=
  (fs.resolve? directory path).bind fs.content?

/-- The text of the file at a path, none if it is no text. -/
def readText? (fs : FileSystem) (directory : Location) (path : String) : Option String :=
  (fs.read? directory path).bind String.fromUTF8?

def isFile (fs : FileSystem) (directory : Location) (path : String) : Bool :=
  (fs.read? directory path).isSome

/-- What an operation leaves behind, and whether it did what it was to do. -/
structure Attempt where
  fs : FileSystem
  succeeded : Bool

/-- Creates the directories that pieces of a path name, where there are none, up to
the first that cannot be created. -/
def makeDirectories (fs : FileSystem) (location : Location) : List (List Char) → Attempt
  | [] => ⟨fs, true⟩
  | piece :: rest =>
      if staysPut piece then fs.makeDirectories location rest
      else if piece = ['.', '.'] then fs.makeDirectories location.dropLast rest
      else if fitsName piece then
        let next := location ++ [String.ofList piece]
        match fs.entry? next with
        | some .directory => fs.makeDirectories next rest
        | some (.file _) => ⟨fs, false⟩
        | none => (fs.put next .directory).makeDirectories next rest
      else
        ⟨fs, false⟩

/-- Creates the directory at a path, with the directories above it. -/
def createDirectory (fs : FileSystem) (directory : Location) (path : String) : Attempt :=
  if isAcceptable path then
    let (start, steps) := origin directory path
    fs.makeDirectories start steps
  else
    ⟨fs, false⟩

def write? (fs : FileSystem) (directory : Location) (path : String) (content : ByteArray) :
    Option FileSystem :=
  (fs.resolve? directory path).bind fun location =>
    if fs.isDirectory location then none else some (fs.put location (.file content))

/-- Writes a file at a path, with the directories above it. -/
def save (fs : FileSystem) (directory : Location) (path : String) (content : ByteArray) :
    Attempt :=
  let above := fs.createDirectory directory (Path.parent path)
  if above.succeeded then
    match above.fs.write? directory path content with
    | some written => ⟨written, true⟩
    | none => ⟨above.fs, false⟩
  else
    above

def deleteAt (fs : FileSystem) (location : Location) : FileSystem :=
  ⟨fs.entries.filter fun other _ => !location.isPrefixOf other⟩

/-- Deletes what stands at a path; nothing happens if nothing does. -/
def delete (fs : FileSystem) (directory : Location) (path : String) : FileSystem :=
  match fs.resolve? directory path with
  | some location => fs.deleteAt location
  | none => fs

/-- The files below a place, by the names that lead to them from there. -/
def filesBelow (fs : FileSystem) (location : Location) : List (Location × ByteArray) :=
  fs.entries.toList.filterMap fun (other, entry) =>
    match entry with
    | .file content =>
        if location.isPrefixOf other then some (other.drop location.length, content) else none
    | .directory => none

/-- The place that a path of any length leads to, if something stands there. -/
def existing? (fs : FileSystem) (directory : Location) (path : String) : Option Location :=
  (fs.destination? directory path).filter fun location => (fs.entry? location).isSome

def absolutePath (location : Location) : String :=
  "/" ++ "/".intercalate location

end FileSystem

end SourceQuote

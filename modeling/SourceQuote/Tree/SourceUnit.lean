import SourceQuote.Dialect
import SourceQuote.Error
import SourceQuote.FileSystem.Basic
import SourceQuote.Tree.Basic

/-!
Contract: a source text with its path, dialect and tree.

Owns: the type, and the rule by which a text becomes one: the grammar gives a
tree, and a tree that holds faults is refused with the position of the first.
-/

namespace SourceQuote

/-- What reads sources: the tree of a text in a grammar, none if it gives up. -/
abbrev Parser := Grammar → String → Option Node

structure SourceUnit where
  path : String
  dialect : Dialect
  source : String
  root : Node

namespace SourceUnit

/-- A text with a tree that was read from it; refused if the tree has faults. -/
def ofTree (path source : String) (dialect : Dialect) (root : Node) :
    Except Error SourceUnit :=
  if root.info.hasError then
    .error (.parse (.badSource path
      (root.firstFault?.map fun fault => Text.positionAt source fault.start)))
  else
    .ok ⟨path, dialect, source, root⟩

def parse (parser : Parser) (path source : String) (dialect : Dialect) :
    Except Error SourceUnit :=
  match parser dialect.grammar source with
  | none => .error (.parse (.noTree path))
  | some root => ofTree path source dialect root

/-- Reads the file at a path, in the dialect of its name. -/
def load
    (parser : Parser)
    (fs : FileSystem)
    (directory : Location)
    (path : String) : Except Error SourceUnit :=
  let shown := Path.forwardSlashes path
  match Dialect.ofPath? shown with
  | none => .error (.parse (.unsupportedFile shown))
  | some dialect =>
      match fs.readText? directory path with
      | none => .error .file
      | some source => parse parser shown source dialect

def describe (unit : SourceUnit) : String :=
  "ParsedUnit \x7b path: " ++ Text.quoted unit.path ++ ", dialect: " ++ unit.dialect.name ++
    ", len: " ++ toString unit.source.utf8ByteSize ++ " \x7d"

end SourceUnit

end SourceQuote

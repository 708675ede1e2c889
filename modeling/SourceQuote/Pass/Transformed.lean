import SourceQuote.Pass.ClassBody
import SourceQuote.Pass.Edit
import SourceQuote.Pass.Options
import SourceQuote.Repository.Registration
import SourceQuote.Tree.SourceUnit

/-!
Contract: the quoting pass over one source file.

Owns: which top-level statements declare a class, which of these classes are
marked, the edits for a marked class, and the result of the pass.

For each marked class the marker decorators are dropped together with the bytes
up to the next sibling, and the registration of its repository is inserted right
after the statement. All other bytes are copied, so a file without marked
classes comes out as it went in.
-/

namespace SourceQuote

def isClassKind (kind : String) : Bool :=
  kind ∈ ["class_declaration", "abstract_class_declaration", "class"]

/-- A top-level statement that declares a class. -/
structure ClassSite where
  statement : Node
  classNode : Node
  /-- Whether the class stands inside an export statement. -/
  exported : Bool

namespace ClassSite

/-- The class that a top-level statement declares. -/
def ofStatement? (statement : Node) : Option ClassSite :=
  if isClassKind statement.kind then
    some ⟨statement, statement, false⟩
  else if statement.kind = "export_statement" then
    match (statement.fieldChild? "declaration").or (statement.fieldChild? "value") with
    | some declared =>
        if isClassKind declared.kind then some ⟨statement, declared, true⟩ else none
    | none => none
  else
    none

/-- The nodes whose decorators can mark the class. -/
def hosts (site : ClassSite) : List Node :=
  if site.exported then [site.statement, site.classNode] else [site.statement]

/-- Whether a node is a decorator that consists of the marker. -/
def isMarker (source marker : String) (placed : Placed) : Bool :=
  placed.node.info.field = some "decorator" &&
    match placed.node.namedChildren.head? with
    | some expression => expression.text source = marker
    | none => false

/-- The decorators that mark the class. -/
def markers (site : ClassSite) (source marker : String) : List Placed :=
  site.hosts.flatMap fun host => (Placed.children host).filter (isMarker source marker)

def name? (site : ClassSite) (source : String) : Option String :=
  (site.classNode.fieldChild? "name").map (Node.text source)

end ClassSite

namespace SourceUnit

/-- The top-level statements that declare a class, in order. -/
def classSites (unit : SourceUnit) : List ClassSite :=
  unit.root.namedChildren.filterMap ClassSite.ofStatement?

/-- The top-level statements that declare a marked class, in order. -/
def markedSites (unit : SourceUnit) (marker : String) : List ClassSite :=
  unit.classSites.filter fun site => !(site.markers unit.source marker).isEmpty

end SourceUnit

structure QuotedClass where
  site : ClassSite
  name : String
  repository : Repository

def quoteSite (unit : SourceUnit) (site : ClassSite) : Except Error QuotedClass :=
  match site.name? unit.source with
  | none => .error (.anonymousClass site.classNode.start)
  | some name => do
      let repository ← extractClass unit.source site.classNode (.forPath unit.path name)
      return ⟨site, name, repository⟩

/-- The edit that drops a marker and the bytes up to its next sibling. -/
def dropMarker (marker : Placed) : Edit :=
  { start := marker.node.start
    stop := (marker.after.head?.map Node.start).getD marker.node.stop
    text := "" }

/-- The edits for a quoted class: its markers go, its registration comes. -/
def QuotedClass.edits (quoted : QuotedClass) (unit : SourceUnit) (options : PassOptions) :
    List Edit :=
  let newline := Text.lineEnding unit.source
  let registration := quoted.repository.registration quoted.name options.registerCall
    unit.dialect.isTyped newline
  (quoted.site.markers unit.source options.marker).map dropMarker ++
    [{ start := quoted.site.statement.stop
       stop := quoted.site.statement.stop
       text := newline ++ registration }]

/-- The result of the pass on one file. -/
structure Transformed where
  source : String
  repositories : List Repository

namespace Transformed

/-- Whether there was anything to quote. -/
def isChanged (transformed : Transformed) : Bool :=
  !transformed.repositories.isEmpty

def countMethods (repositories : List Repository) : Nat :=
  (repositories.map Repository.size).foldr (· + ·) 0

def methodsQuoted (transformed : Transformed) : Nat :=
  countMethods transformed.repositories

end Transformed

namespace SourceUnit

/-- The pass: quotes and registers every marked class of a file. -/
def transform (unit : SourceUnit) (options : PassOptions) : Except Error Transformed := do
  let quoted ← (unit.markedSites options.marker).mapM (quoteSite unit)
  return {
    source := Edit.apply unit.source (quoted.flatMap fun each => each.edits unit options)
    repositories := quoted.map QuotedClass.repository }

/-- The events of quoting marked classes, up to the first failure. -/
def siteEvents (unit : SourceUnit) : List ClassSite → List Log.Event
  | [] => []
  | site :: rest =>
      match site.name? unit.source with
      | none => []
      | some name =>
          let classId := ClassId.forPath unit.path name
          let failed := (memberOutcomes unit.source site.classNode).any fun outcome =>
            outcome.error?.isSome
          .quotingClass classId ::
            (extractionEvents unit.source site.classNode classId ++
              if failed then [] else unit.siteEvents rest)

def transformEvents (unit : SourceUnit) (options : PassOptions) : List Log.Event :=
  unit.siteEvents (unit.markedSites options.marker)

/-- The first top-level class of a name, marked or not. -/
def classNamed? (unit : SourceUnit) (name : String) : Option ClassSite :=
  unit.classSites.find? fun site => site.name? unit.source = some name

/-- The repository of the first top-level class of a name; none if there is no
such class. -/
def extractNamed (unit : SourceUnit) (name : String) : Except Error (Option Repository) :=
  match unit.classNamed? name with
  | none => .ok none
  | some site => (extractClass unit.source site.classNode (.forPath unit.path name)).map some

def extractNamedEvents (unit : SourceUnit) (name : String) : List Log.Event :=
  match unit.classNamed? name with
  | none => []
  | some site => extractionEvents unit.source site.classNode (.forPath unit.path name)

end SourceUnit

end SourceQuote

import SourceQuote.ClassId
import SourceQuote.Error
import SourceQuote.Log.Filter

/-!
Contract: what the library reports while it works.

Owns: the events as a type, and the scope, level, message and named fields of
each.

Events are values that computations return beside their results; nothing here
writes anything.
-/

namespace SourceQuote

/-- What a build did with a file that did not fail. -/
inductive FileStatus where
  /-- It held marked classes and was transformed. -/
  | transformed
  /-- It held none and was copied. -/
  | copied
  /-- The cache knew it and it was left alone. -/
  | unchanged
deriving DecidableEq, Repr

def FileStatus.name : FileStatus → String
  | .transformed => "Transformed"
  | .copied => "Copied"
  | .unchanged => "Unchanged"

namespace Log

inductive Event where
  | quotingClass (classId : ClassId)
  | quotedMethod (classId : ClassId) (method : String) (arity : Nat)
  | skippedComputedName (classId : ClassId) (member : String)
  | duplicateMethod (classId : ClassId) (method : String)
  | replacedRepository (classId : ClassId)
  | loadedManifest (path : String) (repositories : Nat)
  | usingConfig (path : String)
  | usingCompilerConfig (path : String)
  | usingDefaults
  | staleCache (path : String)
  | corruptCache (path : String)
  | buildStarted (files : Nat) (out : String)
  | fileBuilt (file : String) (status : FileStatus)
  | fileFailed (file : String) (error : Error)
  | buildFinished (transformed copied unchanged classes methods : Nat)
deriving DecidableEq, Repr

namespace Event

def level : Event → Level
  | .quotingClass _ => .debug
  | .quotedMethod _ _ _ => .debug
  | .skippedComputedName _ _ => .warn
  | .duplicateMethod _ _ => .warn
  | .replacedRepository _ => .debug
  | .loadedManifest _ _ => .info
  | .usingConfig _ => .debug
  | .usingCompilerConfig _ => .debug
  | .usingDefaults => .debug
  | .staleCache _ => .debug
  | .corruptCache _ => .warn
  | .buildStarted _ _ => .info
  | .fileBuilt _ _ => .debug
  | .fileFailed _ _ => .error
  | .buildFinished _ _ _ _ _ => .info

/-- The scope of an event: the part of the library that reports it. -/
def scope : Event → String
  | .quotingClass _ => "tsq_core::transform::pass"
  | .quotedMethod _ _ _ => "tsq_core::transform::pass"
  | .skippedComputedName _ _ => "tsq_core::transform::pass"
  | .duplicateMethod _ _ => "tsq_core::transform::pass"
  | .replacedRepository _ => "tsq_core::runtime::registry"
  | .loadedManifest _ _ => "tsq_core::runtime::registry"
  | .usingConfig _ => "tsq_core::driver::config"
  | .usingCompilerConfig _ => "tsq_core::driver::config"
  | .usingDefaults => "tsq_core::driver::config"
  | .staleCache _ => "tsq_core::driver::cache"
  | .corruptCache _ => "tsq_core::driver::cache"
  | .buildStarted _ _ => "tsq_core::driver::pipeline"
  | .fileBuilt _ _ => "tsq_core::driver::pipeline"
  | .fileFailed _ _ => "tsq_core::driver::pipeline"
  | .buildFinished _ _ _ _ _ => "tsq_core::driver::pipeline"

def message : Event → String
  | .quotingClass _ => "quoting marked class"
  | .quotedMethod _ _ _ => "quoted method"
  | .skippedComputedName _ _ => "skipping method with computed name"
  | .duplicateMethod _ _ => "duplicate method name, keeping the last definition"
  | .replacedRepository _ => "replaced quotation repository"
  | .loadedManifest _ _ => "loaded quotation manifest"
  | .usingConfig _ => "using tsq config"
  | .usingCompilerConfig _ => "using tsconfig"
  | .usingDefaults => "no config file, using defaults"
  | .staleCache _ => "discarding cache built with other options"
  | .corruptCache _ => "discarding corrupt cache"
  | .buildStarted _ _ => "starting quotation build"
  | .fileBuilt _ _ => "built file"
  | .fileFailed _ error => error.message
  | .buildFinished _ _ _ _ _ => "quotation build finished"

def fields : Event → List (String × String)
  | .quotingClass classId => [("class", classId.qualified)]
  | .quotedMethod classId method arity =>
      [("class", classId.qualified), ("method", method), ("arity", toString arity)]
  | .skippedComputedName classId member =>
      [("class", classId.qualified), ("member", member)]
  | .duplicateMethod classId method =>
      [("class", classId.qualified), ("method", method)]
  | .replacedRepository classId => [("class", classId.qualified)]
  | .loadedManifest path repositories =>
      [("path", path), ("repositories", toString repositories)]
  | .usingConfig path => [("path", path)]
  | .usingCompilerConfig path => [("path", path)]
  | .usingDefaults => []
  | .staleCache path => [("path", path)]
  | .corruptCache path => [("path", path)]
  | .buildStarted files out => [("files", toString files), ("out", out)]
  | .fileBuilt file status => [("file", file), ("status", status.name)]
  | .fileFailed file _ => [("file", file)]
  | .buildFinished transformed copied unchanged classes methods =>
      [("transformed", toString transformed), ("copied", toString copied),
        ("unchanged", toString unchanged), ("classes", toString classes),
        ("methods", toString methods)]

/-- The names by which a filter can ask for the fields of an event. The message is
a field too, and a finished build is timed. -/
def fieldNames (event : Event) : List String :=
  let timed :=
    match event with
    | .buildFinished _ _ _ _ _ => ["elapsed_ms"]
    | _ => []
  "message" :: event.fields.map Prod.fst ++ timed

/-- What a filter looks at in an event. -/
def traits (event : Event) : Traits :=
  ⟨event.scope, event.level, event.fieldNames⟩

end Event

end Log

end SourceQuote

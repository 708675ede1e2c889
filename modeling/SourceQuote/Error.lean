import SourceQuote.Text.Quoted
import SourceQuote.Text.Span
import SourceQuote.Text.Utf8

/-!
Contract: everything that can go wrong, and the words for it.

Owns: the causes of failure as types, and one rendering function for each.

A failing file operation and an unreadable stored document carry no detail: what
the operating system or a reader would say of them is not part of the contract.
-/

namespace SourceQuote

/-- Why a source or a part of one cannot be taken as what it should be. -/
inductive ParseFault where
  /-- A node of another kind stands where a method definition is needed. -/
  | notAMethod (kind : String)
  /-- A method definition has no name. -/
  | namelessMethod
  /-- No dialect belongs to the file's name. -/
  | unsupportedFile (path : String)
  /-- The grammar gave no tree at all. -/
  | noTree (path : String)
  /-- The tree has faults, the first of them at a position. -/
  | badSource (path : String) (position : Option Text.Position)
  | notUtf8 (path : String) (fault : Text.Utf8Fault)
deriving DecidableEq, Repr

/-- Why a configuration cannot be used. -/
inductive ConfigFault where
  | markerShape (marker : String)
  | registerCallShape (registerCall : String)
  | noWorkers
  | nothingIncluded
  | workersNotANumber (written : String)
  | unreadable (path : String)
  | malformed (path : String)
  | badGlob (glob : String)
  /-- A pattern for files is nested too deep. -/
  | deepGlobs
  | manifestVersion (path : String) (version : Nat)
  | projectDirectory (path : String)
deriving DecidableEq, Repr

/-- Why a command over well-formed input has no result. -/
inductive BuildFault where
  | outsideRoot (relative : String)
  | filesFailed (failed seen : Nat)
  | noClass (className path : String)
  | noMethod (method className : String)
deriving DecidableEq, Repr

/-- The causes of failure. -/
inductive Error where
  | unsupportedSpanKind (text : String)
  | emptyBody (method : String)
  | noRepositoryRegistered (className : String)
  | invalidIdentifier (text : String)
  | arityMismatch (expected got : Nat)
  | unsupportedParameter (method parameter : String)
  | anonymousClass (offset : Nat)
  | parse (fault : ParseFault)
  | config (fault : ConfigFault)
  | build (fault : BuildFault)
  /-- A file operation failed. -/
  | file
  /-- A stored document could not be decoded. -/
  | json
deriving DecidableEq, Repr

def ParseFault.message : ParseFault → String
  | .notAMethod kind => s!"expected method_definition, got {kind}"
  | .namelessMethod => "method without a name"
  | .unsupportedFile path => s!"unsupported file type: {path}"
  | .noTree path => s!"failed to parse {path}"
  | .badSource path none => s!"syntax error in {path} at ?"
  | .badSource path (some position) =>
      let row := position.row
      let column := position.column
      s!"syntax error in {path} at {row}:{column}"
  | .notUtf8 path fault =>
      let detail := fault.message
      s!"{path} is not UTF-8: {detail}"

def ConfigFault.message : ConfigFault → String
  | .markerShape marker => s!"marker `{marker}` is not an identifier"
  | .registerCallShape registerCall =>
      s!"register call `{registerCall}` is not a dotted identifier path"
  | .noWorkers => "workers must be at least 1"
  | .nothingIncluded => "include matches nothing"
  | .workersNotANumber written => s!"TSQ_WORKERS={written} is not a number"
  | .unreadable path => s!"failed to read {path}"
  | .malformed path => s!"invalid {path}"
  | .badGlob glob => s!"invalid glob `{glob}`"
  | .deepGlobs => "invalid include/exclude globs"
  | .manifestVersion path version =>
      s!"{path} has manifest version {version}, expected 1"
  | .projectDirectory path => s!"project directory {path}"

def BuildFault.message : BuildFault → String
  | .outsideRoot relative => s!"{relative} is outside rootDir"
  | .filesFailed failed seen => s!"{failed} of {seen} file(s) failed"
  | .noClass className path => s!"no class `{className}` in {path}"
  | .noMethod method className => s!"no ordinary method `{method}` on `{className}`"

def Error.message : Error → String
  | .unsupportedSpanKind text => "unsupported span kind: " ++ Text.quoted text
  | .emptyBody method => s!"method `{method}` has an empty body"
  | .noRepositoryRegistered className =>
      s!"no quotation repository registered for class `{className}`"
  | .invalidIdentifier text => s!"`{text}` is not a valid identifier"
  | .arityMismatch expected got => s!"template expects {expected} argument(s), got {got}"
  | .unsupportedParameter method parameter =>
      s!"method `{method}` declares unsupported parameter `{parameter}`"
  | .anonymousClass offset => s!"marked class at byte {offset} has no name"
  | .parse fault => "Parse error: " ++ fault.message
  | .config fault => "Config error: " ++ fault.message
  | .build fault => "Build error: " ++ fault.message
  | .file => "IO error"
  | .json => "JSON error"

end SourceQuote

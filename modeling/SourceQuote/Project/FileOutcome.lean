import SourceQuote.Digest.Sha256
import SourceQuote.Pass.Transformed
import SourceQuote.Scan.SourceFiles
import SourceQuote.Storage.Cache
import SourceQuote.Text.Utf8

/-!
Contract: what a build does with one file.

Owns: where the output of a file goes, when the cache may stand in for it, and the
outcome of building it.

A file that the cache still knows, and whose output exists, is left alone. Any
other file is read as text, parsed, quoted and written. The first thing that goes
wrong is the outcome, and then no output is written.
-/

namespace SourceQuote

/-- What is the same for all files of a build. -/
structure BuildContext where
  parser : Parser
  /-- Where relative paths start. -/
  directory : Location
  /-- The base of output paths and module names. -/
  root : String
  out : String
  options : PassOptions
  /-- What the last build knew, if it may be used. -/
  cache : Option BuildCache

/-- What became of a file: a failure, or a status with the repositories of its
marked classes. -/
structure FileOutcome where
  relative : String
  /-- The digest of the file's bytes, empty if it could not be read. -/
  contentHash : String
  result : Except Error (FileStatus × List Repository)

namespace FileOutcome

def isFailed (outcome : FileOutcome) : Bool :=
  match outcome.result with
  | .error _ => true
  | .ok _ => false

def hasStatus (outcome : FileOutcome) (status : FileStatus) : Bool :=
  match outcome.result with
  | .error _ => false
  | .ok (own, _) => own = status

/-- The repositories of the file's marked classes; a failed file has none. -/
def repositories (outcome : FileOutcome) : List Repository :=
  match outcome.result with
  | .error _ => []
  | .ok (_, repositories) => repositories

def event (outcome : FileOutcome) : Log.Event :=
  match outcome.result with
  | .error error => .fileFailed outcome.relative error
  | .ok (status, _) => .fileBuilt outcome.relative status

/-- What the cache learns from an outcome: a failed file is forgotten. -/
def record (outcome : FileOutcome) (cache : BuildCache) : BuildCache :=
  match outcome.result with
  | .error _ => cache.remove outcome.relative
  | .ok (_, repositories) => cache.update outcome.relative outcome.contentHash repositories

end FileOutcome

namespace SourceFile

def text (file : SourceFile) (content : ByteArray) : Except Error String :=
  match String.fromUTF8? content with
  | some text => .ok text
  | none =>
      .error (.parse (.notUtf8 file.relative
        ((Text.utf8Fault? content.toList).getD (.incomplete content.size))))

/-- The parsed source of a file, named by its path from the root. -/
def unit (context : BuildContext) (file : SourceFile) (within : String)
    (content : ByteArray) : Except Error SourceUnit := do
  let source ← file.text content
  SourceUnit.parse context.parser (Path.forwardSlashes within) source file.dialect

def transformed (context : BuildContext) (file : SourceFile) (within : String)
    (content : ByteArray) : Except Error Transformed := do
  let unit ← file.unit context within content
  unit.transform context.options

def transformedEvents (context : BuildContext) (file : SourceFile) (within : String)
    (content : ByteArray) : List Log.Event :=
  match file.unit context within content with
  | .ok unit => unit.transformEvents context.options
  | .error _ => []

/-- What the cache knows of a file, if it may stand in for building it: the content
has not changed and the output exists. -/
def cached? (context : BuildContext) (fs : FileSystem) (file : SourceFile)
    (output contentHash : String) : Option CachedFile :=
  (context.cache.bind fun cache => cache.fresh? file.relative contentHash).filter
    fun _ => fs.isFile context.directory output

def statusOf (transformed : Transformed) : FileStatus :=
  if transformed.isChanged then .transformed else .copied

/-- Builds a file from its bytes into an output. -/
def produce (context : BuildContext) (fs : FileSystem) (file : SourceFile)
    (within output : String) (content : ByteArray) :
    FileSystem × Except Error (FileStatus × List Repository) :=
  match file.transformed context within content with
  | .error error => (fs, .error error)
  | .ok transformed =>
      let saved := fs.save context.directory output transformed.source.toByteArray
      (saved.fs,
        if saved.succeeded then .ok (statusOf transformed, transformed.repositories)
        else .error .file)

/-- Builds a file: the file system after it, the outcome, and what was reported on
the way. -/
def build (context : BuildContext) (fs : FileSystem) (file : SourceFile) :
    FileSystem × FileOutcome × List Log.Event :=
  match fs.read? context.directory file.path with
  | none => (fs, ⟨file.relative, "", .error .file⟩, [])
  | some content =>
      let contentHash := Sha256.hexDigest content
      match Path.below? file.path context.root with
      | none =>
          (fs, ⟨file.relative, contentHash, .error (.build (.outsideRoot file.relative))⟩, [])
      | some within =>
          let output := Path.join context.out within
          match file.cached? context fs output contentHash with
          | some entry =>
              (fs, ⟨file.relative, contentHash, .ok (.unchanged, entry.repositories)⟩, [])
          | none =>
              let (after, result) := file.produce context fs within output content
              (after, ⟨file.relative, contentHash, result⟩,
                file.transformedEvents context within content)

end SourceFile

end SourceQuote

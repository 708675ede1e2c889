import SourceQuote.Project.Config
import SourceQuote.Project.FileOutcome
import SourceQuote.Project.Report
import SourceQuote.Storage.Manifest

/-!
Contract: the build of a project.

Owns: the order of a build's steps and what it leaves behind.

A build refuses an unusable configuration, finds the source files outside of the
output directory, builds each, writes the cache, and writes the manifest if no
file failed. A failed file does not keep the others from being built. Until the
first file is built nothing is written.
-/

namespace SourceQuote

/-- What a build leaves behind: the file system, the summary or the failure, and
what was reported. -/
structure BuildRun where
  fs : FileSystem
  result : Except Error BuildReport
  events : List Log.Event

namespace Build

def files (context : BuildContext) (fs : FileSystem) :
    List SourceFile → FileSystem × List FileOutcome × List Log.Event
  | [] => (fs, [], [])
  | file :: rest =>
      let (fs, outcome, events) := file.build context fs
      let (fs, outcomes, more) := files context fs rest
      (fs, outcome :: outcomes, events ++ more)

def repositories (outcomes : List FileOutcome) : List Repository :=
  outcomes.flatMap FileOutcome.repositories

def report (outcomes : List FileOutcome) (manifestPath : Option String) : BuildReport where
  filesSeen := outcomes.length
  filesTransformed := outcomes.countP fun outcome => outcome.hasStatus .transformed
  filesCopied := outcomes.countP fun outcome => outcome.hasStatus .copied
  filesUnchanged := outcomes.countP fun outcome => outcome.hasStatus .unchanged
  filesFailed := outcomes.countP FileOutcome.isFailed
  classesQuoted := (repositories outcomes).length
  methodsQuoted := Transformed.countMethods (repositories outcomes)
  manifestPath := manifestPath

/-- The cache after a build: what it learns from the outcomes, and nothing about
files that the build did not see. -/
def updatedCache (cache : BuildCache) (outcomes : List FileOutcome) : BuildCache :=
  (outcomes.foldl (fun cache outcome => outcome.record cache) cache).retain
    (outcomes.map FileOutcome.relative)

def finished (report : BuildReport) : Log.Event :=
  .buildFinished report.filesTransformed report.filesCopied report.filesUnchanged
    report.classesQuoted report.methodsQuoted

/-- Writes the manifest of a build in which no file failed. -/
def publish (config : Config) (directory : Location) (project : String)
    (outcomes : List FileOutcome) (fs : FileSystem) : FileSystem × Except Error BuildReport :=
  match config.manifestPath? project with
  | none => (fs, .ok (report outcomes none))
  | some path =>
      let text := (Manifest.ofRepositories (repositories outcomes)).render
      let saved := fs.save directory path text.toByteArray
      (saved.fs,
        if saved.succeeded then .ok (report outcomes (some path)) else .error .file)

/-- What is left to do once the files are built: cache and manifest. -/
def conclude (config : Config) (directory : Location) (project : String)
    (cache : BuildCache) (outcomes : List FileOutcome) (fs : FileSystem) :
    FileSystem × Except Error BuildReport :=
  let cachePath := Path.join (config.outPath project) BuildCache.fileName
  let text := (updatedCache cache outcomes).render
  let stored : FileSystem.Attempt :=
    if config.incremental then fs.save directory cachePath text.toByteArray else ⟨fs, true⟩
  let failed := outcomes.countP FileOutcome.isFailed
  if !stored.succeeded then (stored.fs, .error .file)
  else if failed ≠ 0 then
    (stored.fs, .error (.build (.filesFailed failed outcomes.length)))
  else publish config directory project outcomes stored.fs

def ofFiles (parser : Parser) (fs : FileSystem) (directory : Location) (project : String)
    (config : Config) (sources : List SourceFile) : BuildRun :=
  let out := config.outPath project
  let cachePath := Path.join out BuildCache.fileName
  let (cache, cacheEvents) :=
    BuildCache.load cachePath (fs.readText? directory cachePath) config.passOptions
  let context : BuildContext :=
    { parser := parser
      directory := directory
      root := config.rootPath project
      out := out
      options := config.passOptions
      cache := if config.incremental then some cache else none }
  let (built, outcomes, fileEvents) := files context fs sources
  let (after, result) := conclude config directory project cache outcomes built
  { fs := after
    result := result
    events := .buildStarted sources.length out ::
      (cacheEvents ++ fileEvents ++ outcomes.map FileOutcome.event ++
        match result with
        | .ok report => [finished report]
        | .error _ => []) }

def run (parser : Parser) (fs : FileSystem) (directory : Location)
    (environment : Environment) (project : String) (config : Config) : BuildRun :=
  let sources := do
    config.validate
    Scan.sourceFiles fs directory environment project config.included config.excluded
      [config.outPath project]
  match sources with
  | .error error => ⟨fs, .error error, []⟩
  | .ok sources => ofFiles parser fs directory project config sources

end Build

end SourceQuote

import SourceQuote.Environment
import SourceQuote.FileSystem.Basic
import SourceQuote.Json.Reader
import SourceQuote.Json.Writer
import SourceQuote.Log.Event
import SourceQuote.Pass.Options
import SourceQuote.Text.Natural

/-!
Contract: the configuration of a project.

Owns: the settings with their defaults, their JSON document, the settings that a
compiler's configuration holds, overrides from the environment, the search for a
project's configuration, and what makes a configuration usable.

All paths are relative to the project directory.
-/

namespace SourceQuote

structure Config where
  /-- The base of output paths and module names. -/
  rootDir : String := "."
  outDir : String := "dist"
  included : List String := ["src/**/*.ts"]
  excluded : List String := ["node_modules"]
  marker : String := "quoted"
  registerCall : String := "quoted.saveRepo"
  /-- The manifest below the output directory; none for no manifest. -/
  manifest : Option String := some "quotations.json"
  workers : Nat := 4
  /-- Whether the cache may stand in for a build of a file. -/
  incremental : Bool := true
deriving DecidableEq, Repr

structure CompilerConfig where
  included : Option (List String)
  excluded : Option (List String)
  rootDir : Option String
  outDir : Option String

namespace Config

def fileName : String := "tsq.json"

def compilerFileName : String := "tsconfig.json"

def toJson (config : Config) : Json :=
  .record [("rootDir", .text config.rootDir), ("outDir", .text config.outDir),
    ("include", .texts config.included), ("exclude", .texts config.excluded),
    ("marker", .text config.marker), ("registerCall", .text config.registerCall),
    ("manifest", (config.manifest.map Json.text).getD .null),
    ("workers", .natural config.workers), ("incremental", .bool config.incremental)]

/-- The configuration that a value stands for. What is missing has its default. -/
def ofJson? (value : Json) : Option Config :=
  let default : Config := {}
  match value.fields? ["rootDir", "outDir", "include", "exclude", "marker", "registerCall",
      "manifest", "workers", "incremental"] with
  | some [rootDir, outDir, included, excluded, marker, registerCall, manifest, workers,
      incremental] => do
      let rootDir ← Json.withDefault Json.asText? default.rootDir rootDir
      let outDir ← Json.withDefault Json.asText? default.outDir outDir
      let included ← Json.withDefault Json.asTexts? default.included included
      let excluded ← Json.withDefault Json.asTexts? default.excluded excluded
      let marker ← Json.withDefault Json.asText? default.marker marker
      let registerCall ← Json.withDefault Json.asText? default.registerCall registerCall
      let manifest ←
        Json.withDefault (Json.asOptional? Json.asText?) default.manifest manifest
      let workers ←
        Json.withDefault (Json.asNatural? Text.wordBound) default.workers workers
      let incremental ← Json.withDefault Json.asBool? default.incremental incremental
      return {
        rootDir := rootDir
        outDir := outDir
        included := included
        excluded := excluded
        marker := marker
        registerCall := registerCall
        manifest := manifest
        workers := workers
        incremental := incremental }
  | _ => none

end Config

namespace CompilerConfig

/-- A field that may be missing or null. -/
def optionalField {α : Type} (decode : Json → Option α) : Option Json → Option (Option α) :=
  Json.withDefault (Json.asOptional? decode) none

def directoriesOfJson? (value : Json) : Option (Option String × Option String) :=
  match value.fields? ["rootDir", "outDir"] with
  | some [rootDir, outDir] => do
      let rootDir ← optionalField Json.asText? rootDir
      let outDir ← optionalField Json.asText? outDir
      return (rootDir, outDir)
  | _ => none

/-- The compiler's configuration that a value stands for. -/
def ofJson? (value : Json) : Option CompilerConfig :=
  match value.fields? ["include", "exclude", "compilerOptions"] with
  | some [included, excluded, options] => do
      let included ← optionalField Json.asTexts? included
      let excluded ← optionalField Json.asTexts? excluded
      let options ← optionalField directoriesOfJson? options
      let (rootDir, outDir) := options.getD (none, none)
      return ⟨included, excluded, rootDir, outDir⟩
  | _ => none

/-- The defaults with the settings of a compiler's configuration in their place. -/
def toConfig (compiler : CompilerConfig) : Config :=
  let default : Config := {}
  { default with
    included := compiler.included.getD default.included
    excluded := compiler.excluded.getD default.excluded
    rootDir := compiler.rootDir.getD default.rootDir
    outDir := compiler.outDir.getD default.outDir }

end CompilerConfig

namespace Config

/-- Reads a configuration document at a path with a decoder. -/
def loadWith (decode : Json → Option Config) (fs : FileSystem) (directory : Location)
    (path : String) : Except Error Config :=
  match fs.readText? directory path with
  | none => .error (.config (.unreadable path))
  | some text =>
      match (Json.parse? text).bind decode with
      | none => .error (.config (.malformed path))
      | some config => .ok config

def load : FileSystem → Location → String → Except Error Config :=
  loadWith ofJson?

def loadCompiler : FileSystem → Location → String → Except Error Config :=
  loadWith fun value => (CompilerConfig.ofJson? value).map CompilerConfig.toConfig

/-- The value of a variable without the blanks around it, none if it is unset or
blank. -/
def setting? (environment : Environment) (variableName : String) : Option String :=
  ((environment.lookup variableName).map Text.trim).filter fun value => !value.isEmpty

/-- Overrides the number of workers and the output directory. -/
def applyEnvironment (config : Config) (environment : Environment) : Except Error Config := do
  let config ←
    match setting? environment "TSQ_WORKERS" with
    | none => pure config
    | some written =>
        match Text.natural? Text.wordBound written with
        | some workers => pure { config with workers := workers }
        | none => .error (.config (.workersNotANumber written))
  return match setting? environment "TSQ_OUT_DIR" with
    | none => config
    | some outDir => { config with outDir := outDir }

inductive Origin where
  | own (path : String)
  | compiler (path : String)
  | defaults

/-- Where a project's settings come from: its own file, else the compiler's,
else nowhere. -/
def origin (fs : FileSystem) (directory : Location) (project : String) : Origin :=
  let own := Path.join project fileName
  let compiler := Path.join project compilerFileName
  if fs.isFile directory own then .own own
  else if fs.isFile directory compiler then .compiler compiler
  else .defaults

def Origin.event : Origin → Log.Event
  | .own path => .usingConfig path
  | .compiler path => .usingCompilerConfig path
  | .defaults => .usingDefaults

def Origin.load (fs : FileSystem) (directory : Location) : Origin → Except Error Config
  | .own path => Config.load fs directory path
  | .compiler path => loadCompiler fs directory path
  | .defaults => .ok {}

/-- The configuration of a project, with the environment's overrides. -/
def discover (fs : FileSystem) (directory : Location) (project : String)
    (environment : Environment) : Except Error Config := do
  let config ← (origin fs directory project).load fs directory
  config.applyEnvironment environment

def passOptions (config : Config) : PassOptions :=
  ⟨config.marker, config.registerCall⟩

/-- Refuses a configuration that no build could use. -/
def validate (config : Config) : Except Error Unit :=
  if config.workers = 0 then .error (.config .noWorkers)
  else if config.included.all fun pattern => (Text.trim pattern).isEmpty then
    .error (.config .nothingIncluded)
  else
    config.passOptions.validate

def rootPath (config : Config) (project : String) : String :=
  Path.join project config.rootDir

def outPath (config : Config) (project : String) : String :=
  Path.join project config.outDir

/-- The manifest, none if its name is missing or blank. -/
def manifestPath? (config : Config) (project : String) : Option String :=
  (config.manifest.filter fun name => !(Text.trim name).isEmpty).map
    (Path.join (config.outPath project))

end Config

end SourceQuote

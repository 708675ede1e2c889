import SourceQuote.Command.Invocation
import SourceQuote.Project.Build

/-!
Contract: carrying out a request.

Owns: the steps of each command, and what it shows.

A command computes what it shows, or the error that it fails with, together with
the file system it leaves behind and what it reported. Only a build changes files.
-/

namespace SourceQuote

inductive Shown where
  | text (content : String)
  | report (report : BuildReport) (asJson : Bool)
deriving DecidableEq, Repr

/-- What is written for a result, given the time that it took. -/
def Shown.render (milliseconds : Nat) : Shown → String
  | .text content => content
  | .report summed true => (summed.toJson milliseconds).pretty ++ "\n"
  | .report summed false => summed.summary ++ " in " ++ toString milliseconds ++ " ms\n"

/-- A configuration with the settings that a request overrides. -/
def BuildRequest.override (request : BuildRequest) (config : Config) : Config :=
  { config with
    outDir := request.outDir.getD config.outDir
    workers := request.workers.getD config.workers }

structure CommandRun where
  fs : FileSystem
  result : Except Error Shown
  events : List Log.Event

structure Workspace where
  parser : Parser
  fs : FileSystem
  /-- Where relative paths start. -/
  directory : Location
  environment : Environment

namespace Workspace

/-- A command that changes no file. -/
def reading (workspace : Workspace) (result : Except Error Shown)
    (events : List Log.Event) : CommandRun :=
  ⟨workspace.fs, result, events⟩

/-- The configuration of a build: from the file that is asked for, or the
project's own. -/
def config (workspace : Workspace) (request : BuildRequest) (project : String) :
    Except Error Config :=
  match request.configPath with
  | some path => do
      let config ← Config.load workspace.fs workspace.directory path
      config.applyEnvironment workspace.environment
  | none =>
      Config.discover workspace.fs workspace.directory project workspace.environment

/-- The events of finding the configuration of a build. -/
def configEvents (workspace : Workspace) (request : BuildRequest) (project : String) :
    List Log.Event :=
  match request.configPath with
  | some _ => []
  | none => [(Config.origin workspace.fs workspace.directory project).event]

def build (workspace : Workspace) (request : BuildRequest) : CommandRun :=
  match workspace.fs.existing? workspace.directory request.project with
  | none => workspace.reading (.error (.config (.projectDirectory request.project))) []
  | some location =>
      let project := FileSystem.absolutePath location
      let found := workspace.configEvents request project
      match workspace.config request project with
      | .error error => workspace.reading (.error error) found
      | .ok config =>
          let run := Build.run workspace.parser workspace.fs workspace.directory
            workspace.environment project (request.override config)
          ⟨run.fs, run.result.map fun report => .report report request.asJson,
            found ++ run.events⟩

def transform (workspace : Workspace) (path marker : String) : CommandRun :=
  let options : PassOptions := { marker := marker }
  let loaded := do
    options.validate
    SourceUnit.load workspace.parser workspace.fs workspace.directory path
  match loaded with
  | .error error => workspace.reading (.error error) []
  | .ok unit =>
      workspace.reading
        ((unit.transform options).map fun transformed => .text transformed.source)
        (unit.transformEvents options)

/-- The text of a method that is asked for. -/
def quotedText (request : QuoteRequest) (kind : SpanKind) (unit : SourceUnit) :
    Except Error String := do
  match ← unit.extractNamed request.className with
  | none => .error (.build (.noClass request.className request.path))
  | some repository =>
      match repository.get? request.method with
      | none => .error (.build (.noMethod request.method request.className))
      | some quotation =>
          let template := quotation.template kind
          if request.names.isEmpty then .ok template.renderAsDeclared
          else template.renderTexts request.names

def quote (workspace : Workspace) (request : QuoteRequest) : CommandRun :=
  let loaded := do
    let kind ← SpanKind.parse request.span
    let unit ← SourceUnit.load workspace.parser workspace.fs workspace.directory request.path
    return (kind, unit)
  match loaded with
  | .error error => workspace.reading (.error error) []
  | .ok (kind, unit) =>
      workspace.reading
        ((quotedText request kind unit).map fun text => .text (text ++ "\n"))
        (unit.extractNamedEvents request.className)

def run (workspace : Workspace) : Request → CommandRun
  | .build request => workspace.build request
  | .transform path marker => workspace.transform path marker
  | .quote request => workspace.quote request

/-- The events that a run logs: those that the environment's filter, or else the
chosen level, lets through. -/
def logged (workspace : Workspace) (level : Log.Level) (events : List Log.Event) :
    List Log.Event :=
  let filter := Log.chooseFilter
    [workspace.environment.lookup "TSQ_LOG", workspace.environment.lookup "RUST_LOG"] level
  events.filter fun event => Log.passes filter event.traits

end Workspace

def versionLine : String :=
  "tsq " ++ BuildCache.programVersion ++ "\n"

end SourceQuote

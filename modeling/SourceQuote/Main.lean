import SourceQuote.Command.Run
import SourceQuote.Log.Line
import SourceQuote.Tree.Listing

/-!
Contract: the program as it meets the operating system.

Owns: reading arguments, environment and files, writing the directories and files
that a run changed, and the output streams.

Standard input holds the paths of the files that the run may see, one a line; they
are read before the run. The tree of a source `name` is read from the listing
`name.tree` beside it; a source without one cannot be parsed.

Does not own: any decision. What is shown and written is computed by
`Workspace.run`.
-/

namespace SourceQuote

/-- The lines of standard input, up to its end or the first empty line. -/
partial def inputLines (stream : IO.FS.Stream) (lines : List String) : IO (List String) := do
  let line := Text.trim (← stream.getLine)
  if line.isEmpty then return lines else inputLines stream (lines ++ [line])

def loadFile (fs : FileSystem) (directory : Location) (path : String) : IO FileSystem := do
  match ← (IO.FS.readBinFile path).toBaseIO with
  | .ok content => return (fs.save directory path content).fs
  | .error _ => return fs

def loadFiles (directory : Location) (paths : List String) : IO FileSystem := do
  let here := FileSystem.absolutePath directory
  let start := (FileSystem.empty.createDirectory [] here).fs
  paths.foldlM (fun fs path => loadFile fs directory path) start

/-- The parser that looks sources up among those with a listing beside them. -/
def listedParser (fs : FileSystem) : Parser := fun grammar source =>
  fs.entries.toList.findSome? fun (location, entry) =>
    match entry, location.getLast? with
    | .file content, some name =>
        let listing := location.dropLast ++ [name ++ ".tree"]
        if (Dialect.ofPath? name).map Dialect.grammar = some grammar ∧
            String.fromUTF8? content = some source then
          (fs.content? listing).bind fun bytes =>
            (String.fromUTF8? bytes).bind Node.ofListing?
        else
          none
    | _, _ => none

/-- The number of the account, in what the system tells about a process. -/
def accountIn? (status : String) : Option String :=
  (status.splitOn "\n").findSome? fun line =>
    match line.splitOn "\t" with
    | "Uid:" :: account :: _ => some account
    | _ => none

/-- The home directory of an account, in the system's list of accounts. -/
def homeIn? (accounts account : String) : Option String :=
  (accounts.splitOn "\n").findSome? fun line =>
    match line.splitOn ":" with
    | [_, _, entry, _, _, home, _] => if entry = account then some home else none
    | _ => none

/-- The home directory that the system keeps for the account of this run. -/
def loadAccountHome? : IO (Option String) := do
  match ← (IO.FS.readFile "/proc/self/status").toBaseIO,
      ← (IO.FS.readFile "/etc/passwd").toBaseIO with
  | .ok status, .ok accounts => return (accountIn? status).bind (homeIn? accounts)
  | _, _ => return none

/-- The variables that a run looks at, and the home directory of its account. -/
def loadEnvironment : IO Environment := do
  let mut environment : Environment := []
  for name in ["TSQ_WORKERS", "TSQ_OUT_DIR", "TSQ_LOG", "RUST_LOG", "HOME",
      "XDG_CONFIG_HOME", "GIT_CONFIG_GLOBAL", "GIT_CONFIG_SYSTEM"] do
    match ← IO.getEnv name with
    | some value => environment := environment ++ [.assignment name value]
    | none => pure ()
  match ← loadAccountHome? with
  | some home => return environment ++ [.accountHome home]
  | none => return environment

def storeChanges (before after : FileSystem) : IO Unit := do
  for (location, entry) in after.entries.toList do
    let path := FileSystem.absolutePath location
    match entry with
    | .directory => if !before.isDirectory location then IO.FS.createDirAll path
    | .file content =>
        if (before.content? location).map ByteArray.toList ≠ some content.toList then
          IO.FS.writeBinFile path content

/-- Carries out an invocation and gives the exit code. -/
def carryOut (invocation : Invocation) : IO UInt32 := do
  let started ← IO.monoMsNow
  let directory := ((← IO.getEnv "PWD").map fun path =>
    Path.normalNames (Path.components path)).getD []
  let fs ← loadFiles directory (← inputLines (← IO.getStdin) [])
  let workspace : Workspace := ⟨listedParser fs, fs, directory, ← loadEnvironment⟩
  let run := workspace.run invocation.request
  storeChanges fs run.fs
  for event in workspace.logged invocation.level run.events do
    IO.eprintln (event.line invocation.format)
  match run.result with
  | .ok shown =>
      let finished ← IO.monoMsNow
      IO.print (shown.render (finished - started))
      return 0
  | .error error =>
      IO.eprintln ("tsq: " ++ error.message)
      return 1

end SourceQuote

def main (arguments : List String) : IO UInt32 := do
  match SourceQuote.Invocation.parse arguments with
  | .ok invocation => SourceQuote.carryOut invocation
  | .error .version => IO.print SourceQuote.versionLine; return 0
  | .error .help => IO.print SourceQuote.Invocation.helpText; return 0
  | .error .usage => IO.eprint SourceQuote.Invocation.helpText; return 2

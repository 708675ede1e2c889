import SourceQuote.Proofs.Pass.Rewriting
import SourceQuote.Proofs.Project.Conclusion

/-!
Contract: what a build reads and what it writes to.

Owns: the places of a build's inputs and outputs, of its cache and its manifest, and that a build
changes nothing else.

Also owns a small project, on which theorems about builds are shown to say something.
-/

namespace SourceQuote

open SourceQuote.FileSystem (Keeps place)

namespace SourceFile

theorem expected_congr {context : BuildContext} {fs other : FileSystem} {file : SourceFile}
    (same : fs.read? context.directory file.path = other.read? context.directory file.path) :
    file.expected context fs = file.expected context other := by
  unfold expected
  rw [same]

theorem expected_withCache (context : BuildContext) (cache : Option BuildCache)
    (fs : FileSystem) (file : SourceFile) :
    file.expected { context with cache := cache } fs = file.expected context fs :=
  rfl

theorem output?_withCache (context : BuildContext) (cache : Option BuildCache)
    (file : SourceFile) :
    file.output? { context with cache := cache } = file.output? context :=
  rfl

end SourceFile

namespace Project

/-! ## What a build reads and writes -/

section Places

variable (project : Project) (call : BuildCall)

/-- The files that a build lists; none if its configuration cannot be used. -/
def listed : List SourceFile :=
  match project.sources call with
  | .ok found => found
  | .error _ => []

def inputPlaces : List Location :=
  (project.listed call).map fun file => place project.directory file.path

def outputPlaces : List Location :=
  (project.listed call).filterMap fun file =>
    (file.output? (project.context call)).map (place project.directory)

def manifestPlace? : Option Location :=
  (call.config.manifestPath? project.path).map (place project.directory)

def writtenPlaces : List Location :=
  project.outputPlaces call ++ project.cachePlace call :: (project.manifestPlace? call).toList

def contents : List ByteArray :=
  (project.listed call).filterMap fun file => call.before.read? project.directory file.path

/-- Whether everything that a build tries to write is written. -/
def WritesSucceed : Prop :=
  (project.run call).result ≠ .error .file ∧
    ∀ outcome ∈ project.outcomes call (project.listed call), ¬ outcome.IsUnwritten

end Places

variable {project : Project} {call : BuildCall} {found : List SourceFile}

theorem listed_eq (isFound : project.sources call = .ok found) : project.listed call = found := by
  rw [listed, isFound]

theorem sources_of_mem_listed {file : SourceFile} (member : file ∈ project.listed call) :
    ∃ found, project.sources call = .ok found ∧ file ∈ found := by
  unfold listed at member
  split at member
  · next found isFound => exact ⟨found, isFound, member⟩
  · cases member

theorem mem_outputPlaces (isFound : project.sources call = .ok found) {location : Location} :
    location ∈ project.outputPlaces call ↔
      location ∈ (project.context call).outputPlaces found := by
  rw [outputPlaces, listed_eq isFound, List.mem_filterMap]
  simp only [Option.map_eq_some_iff]
  rfl

theorem mem_writtenPlaces_of_concluded {location : Location}
    (member : location ∈ Build.concludedPlaces call.config project.directory project.path) :
    location ∈ project.writtenPlaces call := by
  refine List.mem_append_right _ ?_
  rcases member with ⟨_, rfl⟩ | ⟨path, named, rfl⟩
  · exact List.mem_cons_self
  · refine List.mem_cons_of_mem _ ?_
    rw [manifestPlace?, named]
    exact List.mem_singleton_self _

/-- Storing cache and manifest writes to no output. -/
theorem output_not_concluded (wellFormed : call.before.WellFormed)
    (isFound : project.sources call = .ok found)
    (manifest : ∀ location ∈ project.manifestPlace? call, location ∉ project.outputPlaces call)
    {location : Location} (isOutput : location ∈ (project.context call).outputPlaces found) :
    location ∉ Build.concludedPlaces call.config project.directory project.path := by
  rintro (⟨_, rfl⟩ | ⟨path, named, rfl⟩)
  · exact cachePlace_not_output wellFormed isFound isOutput
  · refine manifest _ ?_ ((mem_outputPlaces isFound).mpr isOutput)
    rw [manifestPlace?, named]
    rfl

theorem separates_of_apart (wellFormed : call.before.WellFormed)
    (isFound : project.sources call = .ok found)
    (apart : ∀ location ∈ project.inputPlaces call, location ∉ project.outputPlaces call) :
    (project.context call).Separates call.before found := by
  refine separates wellFormed isFound fun file member isOutput => ?_
  refine apart (place project.directory file.path) ?_ ((mem_outputPlaces isFound).mpr isOutput)
  rw [inputPlaces, listed_eq isFound]
  exact List.mem_map_of_mem member

theorem mem_writtenPlaces {location : Location} :
    location ∈ project.writtenPlaces call ↔ location ∈ project.outputPlaces call ∨
      location = project.cachePlace call ∨ location ∈ project.manifestPlace? call := by
  rw [writtenPlaces, List.mem_append, List.mem_cons, Option.mem_toList, Option.mem_def]

/-- A build changes no file but at the places it writes to. -/
theorem keeps_writtenPlaces (project : Project) (call : BuildCall) :
    Keeps {location | location ∈ project.writtenPlaces call} call.before
      (project.run call).fs := by
  cases isFound : project.sources call with
  | error error =>
      rw [run_of_sources_error isFound]
      exact .refl _ _
  | ok found =>
      have files := Build.keeps_files (project.context call) call.before found
      refine (files.mono ?_).trans ((keeps_run isFound).mono fun _ => mem_writtenPlaces_of_concluded)
      intro location member
      exact List.mem_append_left _ ((mem_outputPlaces isFound).mpr member)

theorem context_directory (project : Project) (call : BuildCall) :
    (project.context call).directory = project.directory :=
  rfl

theorem context_cache (project : Project) (call : BuildCall) :
    (project.context call).cache =
      if call.config.incremental then some (project.loaded call) else none :=
  rfl

theorem context_eq {origin : BuildCall} (sameRoot : call.config.rootDir = origin.config.rootDir)
    (sameOut : call.config.outDir = origin.config.outDir)
    (sameOptions : call.config.passOptions = origin.config.passOptions) :
    project.context call =
      { project.context origin with cache := (project.context call).cache } := by
  simp only [context, contextWith, Config.rootPath, Config.outPath, sameRoot, sameOut, sameOptions]

/-- What a build remembers of a file is an entry of its cache, made for the same bytes. -/
theorem loaded_of_remembered {file : SourceFile} {entry : CachedFile}
    (remembered : file.remembered? (project.context call) call.before = some entry) :
    ∃ content, call.before.read? project.directory file.path = some content ∧
      (project.loaded call).files.get? file.relative = some entry ∧
      entry.contentHash = Sha256.hexDigest content := by
  obtain ⟨content, read, known⟩ := Option.bind_eq_some_iff.mp remembered
  obtain ⟨cache, isCache, fresh⟩ := Option.bind_eq_some_iff.mp known
  rw [context_cache] at isCache
  split at isCache
  · obtain rfl := Option.some.inj isCache
    obtain ⟨isEntry, sameHash⟩ := Option.filter_eq_some_iff.mp fresh
    exact ⟨content, read, isEntry, of_decide_eq_true sameHash⟩
  · cases isCache

/-- Without a cache file nothing is remembered. -/
theorem remembered?_of_absent (absent : call.before.content? (project.cachePlace call) = none)
    (file : SourceFile) : file.remembered? (project.context call) call.before = none := by
  rw [Option.eq_none_iff_forall_ne_some]
  intro entry remembered
  obtain ⟨_, _, isEntry, _⟩ := loaded_of_remembered remembered
  have stands := cacheAt?_of_loaded isEntry
  rw [FileSystem.cacheAt?, absent] at stands
  cases stands

end Project

/-! ## A small project -/

namespace Sample

def markedSource : String := "@quoted class A\x7b\x7d"

/-- A file of one marked class, and any other text as a file without statements. -/
def parser : Parser := fun _ source =>
  some (node "program" none true 0 source.utf8ByteSize
    (if source = markedSource then [markedClass none 0] else []))

def project : Project := ⟨parser, [], "/p"⟩

def loneBuild : BuildCall :=
  ⟨holding [("/p/a.ts", markedSource)], [], { included := ["*.ts"] }⟩

def loneFile : SourceFile := ⟨"/p/a.ts", "a.ts", .typeScript⟩

def manifestPath : String := "/p/dist/quotations.json"

end Sample

end SourceQuote

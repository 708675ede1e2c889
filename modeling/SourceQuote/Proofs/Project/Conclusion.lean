import SourceQuote.Proofs.Containers.Maps
import SourceQuote.Proofs.Project.FileBuild
import SourceQuote.Proofs.Storage.RoundTrip

/-!
Contract: what a build leaves behind once its files are built.

Owns: the parts that a build is made of, by name; what the cache after a build says; what
storing the cache and the manifest does to the file system; and the result of a build in terms
of the outcomes of its files.
-/

namespace SourceQuote

open SourceQuote.FileSystem (Keeps place)

/-! ## The parts of a build -/

/-- What stays the same over the builds of a project. -/
structure Project where
  parser : Parser
  /-- Where relative paths start. -/
  directory : Location
  path : String

/-- A build of a project: what it finds, and how it is configured. -/
structure BuildCall where
  before : FileSystem
  environment : Environment
  config : Config

namespace Project

variable (project : Project) (call : BuildCall)

def run : BuildRun :=
  Build.run project.parser call.before project.directory call.environment project.path
    call.config

def sources : Except Error (List SourceFile) := do
  call.config.validate
  Scan.sourceFiles call.before project.directory call.environment project.path
    call.config.included call.config.excluded [call.config.outPath project.path]

/-- The source files of a build in the order of their places. -/
def listing : Except Error (List SourceFile) := do
  call.config.validate
  Scan.listing call.before project.directory call.environment project.path
    call.config.included call.config.excluded [call.config.outPath project.path]

def cachePath : String :=
  Path.join (call.config.outPath project.path) BuildCache.fileName

def cachePlace : Location :=
  place project.directory (project.cachePath call)

def loaded : BuildCache :=
  (BuildCache.load (project.cachePath call)
    (call.before.readText? project.directory (project.cachePath call))
    call.config.passOptions).1

/-- What is the same for all files of a build that begins with a cache. -/
def contextWith (cache : BuildCache) : BuildContext where
  parser := project.parser
  directory := project.directory
  root := call.config.rootPath project.path
  out := call.config.outPath project.path
  options := call.config.passOptions
  cache := if call.config.incremental then some cache else none

def context : BuildContext :=
  project.contextWith call (project.loaded call)

/-- How a build that begins with a cache ends once its files are found. -/
def concludedWith (cache : BuildCache) (found : List SourceFile) :
    FileSystem × Except Error BuildReport :=
  Build.conclude call.config project.directory project.path cache
    (Build.files (project.contextWith call cache) call.before found).2.1
    (Build.files (project.contextWith call cache) call.before found).1

def built (found : List SourceFile) : FileSystem :=
  (Build.files (project.context call) call.before found).1

def outcomes (found : List SourceFile) : List FileOutcome :=
  (Build.files (project.context call) call.before found).2.1

variable {project call} {found : List SourceFile}

theorem cachePlace_eq (project : Project) (call : BuildCall) :
    project.cachePlace call =
      place project.directory (call.config.outPath project.path) ++ [BuildCache.fileName] := by
  rw [cachePlace, cachePath, FileSystem.place_join _ (by decide)]
  rfl

theorem run_of_sources_ok (isFound : project.sources call = .ok found) :
    ((project.run call).fs, (project.run call).result) =
      project.concludedWith call (project.loaded call) found := by
  unfold sources at isFound
  unfold run Build.run
  rw [isFound]
  rfl

theorem run_of_loaded {cache : BuildCache} (isFound : project.sources call = .ok found)
    (isLoaded : project.loaded call = cache) :
    (project.run call).fs = (project.concludedWith call cache found).1 ∧
      (project.run call).result = (project.concludedWith call cache found).2 := by
  rw [← isLoaded, ← run_of_sources_ok isFound]
  exact ⟨rfl, rfl⟩

theorem run_of_sources_error {error : Error} (failed : project.sources call = .error error) :
    project.run call = ⟨call.before, .error error, []⟩ := by
  unfold sources at failed
  unfold run Build.run
  rw [failed]

theorem sources_of_valid (valid : call.config.validate = .ok ()) :
    project.sources call =
      Scan.sourceFiles call.before project.directory call.environment project.path
        call.config.included call.config.excluded [call.config.outPath project.path] := by
  rw [sources, valid]
  rfl

theorem sources_of_invalid {error : Error} (refused : call.config.validate = .error error) :
    project.sources call = .error error := by
  rw [sources, refused]
  rfl

theorem sources_eq_listing (project : Project) (call : BuildCall) :
    project.sources call = (project.listing call).map (List.mergeSort · Scan.le) := by
  unfold sources listing
  rw [Scan.sourceFiles_eq]
  cases call.config.validate with
  | error error => rfl
  | ok => rfl

theorem sources_of_sorted (isListing : project.listing call = .ok found)
    (sorted : found.Pairwise fun first second => Scan.le first second = true) :
    project.sources call = .ok found := by
  rw [sources_eq_listing, isListing]
  exact congrArg Except.ok (List.mergeSort_of_pairwise sorted)

theorem sources_eq_ok (isFound : project.sources call = .ok found) :
    call.config.validate = .ok () ∧
      Scan.sourceFiles call.before project.directory call.environment project.path
        call.config.included call.config.excluded [call.config.outPath project.path] =
        .ok found := by
  cases valid : call.config.validate with
  | error error =>
      rw [sources_of_invalid valid] at isFound
      cases isFound
  | ok => exact ⟨rfl, (sources_of_valid valid).symm.trans isFound⟩

end Project

/-! ## The cache -/

/-- The cache that the file at a place stands for, whatever options it was made with. -/
def FileSystem.cacheAt? (fs : FileSystem) (location : Location) : Option BuildCache :=
  (fs.content? location).bind fun bytes => (String.fromUTF8? bytes).bind BuildCache.stored?

namespace BuildCache

theorem load_version (path : String) (stored : Option String) (options : PassOptions) :
    (load path stored options).1.version = currentVersion ∧
      (load path stored options).1.options = fingerprint options := by
  unfold load
  split
  · exact ⟨rfl, rfl⟩
  · split
    · exact ⟨rfl, rfl⟩
    · split
      · next accepted => exact accepted
      · exact ⟨rfl, rfl⟩

/-- An entry of a cache that was loaded is an entry of the stored one. -/
theorem stored?_of_load {path : String} {stored : Option String} {options : PassOptions}
    {relative : String} {entry : CachedFile}
    (known : (load path stored options).1.files.get? relative = some entry) :
    ∃ text, stored = some text ∧ stored? text = some (load path stored options).1 := by
  unfold load at known ⊢
  split
  · cases known
  · next text =>
      refine ⟨text, rfl, ?_⟩
      dsimp only at known
      split
      · next undecoded =>
          rw [undecoded] at known
          cases known
      · next cache decoded =>
          rw [decoded] at known
          dsimp only at known
          split
          · exact decoded
          · next refused =>
              rw [if_neg refused] at known
              cases known

end BuildCache

namespace FileOutcome

theorem get?_record (outcome : FileOutcome) (cache : BuildCache) (relative : String) :
    (outcome.record cache).files.get? relative =
      if relative = outcome.relative then
        match outcome.result with
        | .error _ => none
        | .ok (_, repositories) => some ⟨outcome.contentHash, repositories⟩
      else cache.files.get? relative := by
  unfold record
  cases outcome.result with
  | error error => exact SortedMap.get?_erase cache.files outcome.relative relative
  | ok built => exact SortedMap.get?_insert cache.files outcome.relative relative _

theorem record_options (outcome : FileOutcome) (cache : BuildCache) :
    (outcome.record cache).version = cache.version ∧
      (outcome.record cache).options = cache.options := by
  unfold record
  split <;> exact ⟨rfl, rfl⟩

end FileOutcome

namespace Build

theorem foldl_record_options (outcomes : List FileOutcome) (cache : BuildCache) :
    (outcomes.foldl (fun cache outcome => outcome.record cache) cache).version = cache.version ∧
      (outcomes.foldl (fun cache outcome => outcome.record cache) cache).options =
        cache.options := by
  induction outcomes generalizing cache with
  | nil => exact ⟨rfl, rfl⟩
  | cons outcome rest inductionHypothesis =>
      rw [List.foldl_cons, (inductionHypothesis _).1, (inductionHypothesis _).2]
      exact outcome.record_options cache

/-- An entry after recording outcomes is that of one of them, or an old one of a file that none
of them is about. -/
theorem get?_foldl_record {outcomes : List FileOutcome} {cache : BuildCache} {relative : String}
    {entry : CachedFile}
    (known : (outcomes.foldl (fun cache outcome => outcome.record cache) cache).files.get?
      relative = some entry) :
    (∃ outcome ∈ outcomes, outcome.relative = relative ∧
        outcome.contentHash = entry.contentHash ∧
        ∃ status, outcome.result = .ok (status, entry.repositories)) ∨
      ∀ outcome ∈ outcomes, outcome.relative ≠ relative := by
  induction outcomes using List.reverseRecOn with
  | nil => exact Or.inr fun _ member => absurd member List.not_mem_nil
  | append_singleton outcomes outcome inductionHypothesis =>
      rw [List.foldl_append, List.foldl_cons, List.foldl_nil, FileOutcome.get?_record] at known
      split at known
      · next same =>
          left
          split at known
          · cases known
          · next status repositories built =>
              cases known
              exact ⟨outcome, by simp, same.symm, rfl, status, built⟩
      · next differs =>
          rcases inductionHypothesis known with ⟨earlier, member, facts⟩ | unseen
          · exact Or.inl ⟨earlier, List.mem_append_left _ member, facts⟩
          · refine Or.inr fun other member => ?_
            rcases List.mem_append.mp member with member | member
            · exact unseen other member
            · rw [List.mem_singleton.mp member]
              exact Ne.symm differs

/-- Every entry of the cache after a build is the outcome of a file that was built. -/
theorem get?_updatedCache {cache : BuildCache} {outcomes : List FileOutcome} {relative : String}
    {entry : CachedFile}
    (known : (updatedCache cache outcomes).files.get? relative = some entry) :
    ∃ outcome ∈ outcomes, outcome.relative = relative ∧
      outcome.contentHash = entry.contentHash ∧
      ∃ status, outcome.result = .ok (status, entry.repositories) := by
  have filtered := SortedMap.get?_filterKeys
    (outcomes.foldl (fun cache outcome => outcome.record cache) cache).files
    (fun path => (outcomes.map FileOutcome.relative).contains path) relative
  have retained : (updatedCache cache outcomes).files.get? relative = _ := filtered
  rw [known] at retained
  split at retained
  · next live =>
      rcases get?_foldl_record retained.symm with recorded | unseen
      · exact recorded
      · have isLive : relative ∈ outcomes.map FileOutcome.relative := by simpa using live
        obtain ⟨outcome, member, same⟩ := List.mem_map.mp isLive
        exact absurd same (unseen outcome member)
  · cases retained

theorem updatedCache_options (cache : BuildCache) (outcomes : List FileOutcome) :
    (updatedCache cache outcomes).version = cache.version ∧
      (updatedCache cache outcomes).options = cache.options :=
  foldl_record_options outcomes cache

/-! ## Cache and manifest in the file system -/

section Conclude

variable (config : Config) (directory : Location) (project : String) (cache : BuildCache)
  (outcomes : List FileOutcome) (fs : FileSystem)

def cacheBytes : ByteArray :=
  (updatedCache cache outcomes).render.toByteArray

def manifestBytes : ByteArray :=
  (Manifest.ofRepositories (repositories outcomes)).render.toByteArray

def failures : Nat :=
  outcomes.countP FileOutcome.isFailed

def storing : FileSystem.Attempt :=
  if config.incremental then
    fs.save directory (Path.join (config.outPath project) BuildCache.fileName)
      (cacheBytes cache outcomes)
  else ⟨fs, true⟩

/-- What the end of a build can do after storing the cache: the file system, and the result. -/
inductive Concludes (stored : FileSystem.Attempt) :
    FileSystem → Except Error BuildReport → Prop
  | unstored (failed : stored.succeeded = false) : Concludes stored stored.fs (.error .file)
  | failed (succeeded : stored.succeeded = true) (faulty : failures outcomes ≠ 0) :
      Concludes stored stored.fs
        (.error (.build (.filesFailed (failures outcomes) outcomes.length)))
  | silent (succeeded : stored.succeeded = true) (clear : failures outcomes = 0)
      (unnamed : config.manifestPath? project = none) :
      Concludes stored stored.fs (.ok (report outcomes none))
  | published {path : String} (succeeded : stored.succeeded = true)
      (clear : failures outcomes = 0) (named : config.manifestPath? project = some path) :
      Concludes stored (stored.fs.save directory path (manifestBytes outcomes)).fs
        (if (stored.fs.save directory path (manifestBytes outcomes)).succeeded
          then .ok (report outcomes (some path)) else .error .file)

theorem concludes_conclude :
    Concludes config directory project outcomes
      (storing config directory project cache outcomes fs)
      (conclude config directory project cache outcomes fs).1
      (conclude config directory project cache outcomes fs).2 := by
  have unfolded : conclude config directory project cache outcomes fs =
      if !(storing config directory project cache outcomes fs).succeeded then
        ((storing config directory project cache outcomes fs).fs, .error .file)
      else if failures outcomes ≠ 0 then
        ((storing config directory project cache outcomes fs).fs,
          .error (.build (.filesFailed (failures outcomes) outcomes.length)))
      else publish config directory project outcomes
        (storing config directory project cache outcomes fs).fs := rfl
  rw [unfolded]
  generalize storing config directory project cache outcomes fs = stored
  split
  · next failed => exact .unstored (by simpa using failed)
  · next succeeded =>
      have isStored : stored.succeeded = true := by simpa using succeeded
      split
      · next faulty => exact .failed isStored faulty
      · next clear =>
          have noneFailed : failures outcomes = 0 := by simpa using clear
          unfold publish
          split
          · next unnamed => exact .silent isStored noneFailed unnamed
          · next path named =>
              dsimp only
              exact .published isStored noneFailed named

end Conclude

section Concluded

variable {config : Config} {directory : Location} {project : String} {cache : BuildCache}
  {outcomes : List FileOutcome} {fs : FileSystem}

/-- The places that the end of a build writes to. -/
def concludedPlaces (config : Config) (directory : Location) (project : String) :
    Set Location :=
  {location | (config.incremental = true ∧
      place directory (Path.join (config.outPath project) BuildCache.fileName) = location) ∨
    ∃ path, config.manifestPath? project = some path ∧ place directory path = location}

theorem keeps_storing (config : Config) (directory : Location) (project : String)
    (cache : BuildCache) (outcomes : List FileOutcome) (fs : FileSystem) :
    Keeps (concludedPlaces config directory project) fs
      (storing config directory project cache outcomes fs).fs := by
  unfold storing
  split
  · next incremental =>
      refine (FileSystem.keeps_save _ _ _ _).mono ?_
      rintro location rfl
      exact Or.inl ⟨incremental, rfl⟩
  · exact .refl _ _

namespace Concludes

variable {stored : FileSystem.Attempt} {after : FileSystem} {result : Except Error BuildReport}
  (concludes : Concludes config directory project outcomes stored after result)
include concludes

theorem keeps : Keeps (concludedPlaces config directory project) stored.fs after := by
  cases concludes with
  | published succeeded clear named =>
      refine (FileSystem.keeps_save _ _ _ _).mono ?_
      rintro location rfl
      exact Or.inr ⟨_, named, rfl⟩
  | _ => exact .refl _ _

theorem result_eq (wrote : result ≠ .error .file) :
    stored.succeeded = true ∧
      result = if failures outcomes = 0 then .ok (report outcomes (config.manifestPath? project))
        else .error (.build (.filesFailed (failures outcomes) outcomes.length)) := by
  cases concludes with
  | unstored failed => exact absurd rfl wrote
  | failed succeeded faulty => exact ⟨succeeded, (if_neg faulty).symm⟩
  | silent succeeded clear unnamed => exact ⟨succeeded, by rw [if_pos clear, unnamed]⟩
  | published succeeded clear named =>
      split at wrote
      · next published => exact ⟨succeeded, by rw [if_pos published, if_pos clear, named]⟩
      · exact absurd rfl wrote

theorem read?_manifest {report : BuildReport} {path : String} (succeeded : result = .ok report)
    (named : config.manifestPath? project = some path) :
    after.read? directory path = some (manifestBytes outcomes) := by
  cases concludes with
  | unstored => cases succeeded
  | failed => cases succeeded
  | silent _ _ unnamed =>
      rw [named] at unnamed
      cases unnamed
  | published _ _ isNamed =>
      rw [named] at isNamed
      cases isNamed
      split at succeeded
      · next published => exact FileSystem.read?_save published
      · cases succeeded

/-- What was stored is read back in the end, unless the manifest takes its place. -/
theorem read?_stored {path : String} {content : ByteArray}
    (read : stored.fs.read? directory path = some content)
    (apart : ∀ manifest, config.manifestPath? project = some manifest →
      place directory path ≠ place directory manifest) :
    after.read? directory path = some content := by
  cases concludes with
  | published _ _ named =>
      exact (FileSystem.keeps_save _ _ _ _).read? (apart _ named) read
  | _ => exact read

/-- A place keeps what it held when the cache was stored, or holds the manifest. -/
theorem content?_eq (location : Location) :
    after.content? location = stored.fs.content? location ∨
      after.content? location = some (manifestBytes outcomes) := by
  cases concludes with
  | @published path succeeded clear named =>
      by_cases here : location = place directory path
      · subst here
        rw [FileSystem.content?_save]
        split
        · exact Or.inr rfl
        · exact Or.inl rfl
      · exact Or.inl ((FileSystem.keeps_save _ _ _ _).contents _ here)
  | _ => exact Or.inl rfl

end Concludes

theorem cacheAt?_eq_none_of_manifest {location : Location}
    (stands : fs.content? location = some (manifestBytes outcomes)) :
    fs.cacheAt? location = none := by
  rw [FileSystem.cacheAt?, stands, Option.bind_some, manifestBytes,
    FileSystem.fromUTF8?_toByteArray, Option.bind_some, BuildCache.stored?_render_manifest]

theorem cacheAt?_eq_some_of_cache {location : Location}
    (current : cache.version = BuildCache.currentVersion)
    (stands : fs.content? location = some (cacheBytes cache outcomes)) :
    fs.cacheAt? location = some (updatedCache cache outcomes) := by
  have version := (updatedCache_options cache outcomes).1.trans current
  rw [FileSystem.cacheAt?, stands, Option.bind_some, cacheBytes,
    FileSystem.fromUTF8?_toByteArray, Option.bind_some, BuildCache.stored?_render version]

end Concluded

end Build

/-! ## Whole builds -/

namespace Project

variable {project : Project} {call : BuildCall} {found : List SourceFile}

def stored (project : Project) (call : BuildCall) (found : List SourceFile) :
    FileSystem.Attempt :=
  Build.storing call.config project.directory project.path (project.loaded call)
    (project.outcomes call found) (project.built call found)

theorem concludes_run (isFound : project.sources call = .ok found) :
    Build.Concludes call.config project.directory project.path (project.outcomes call found)
      (project.stored call found) (project.run call).fs (project.run call).result := by
  have concluded := Build.concludes_conclude call.config project.directory project.path
    (project.loaded call) (project.outcomes call found) (project.built call found)
  have ends := run_of_sources_ok isFound
  rw [concludedWith] at ends
  rw [outcomes, built, context, ← ends] at concluded
  exact concluded

theorem keeps_stored (project : Project) (call : BuildCall) (found : List SourceFile) :
    Keeps (Build.concludedPlaces call.config project.directory project.path)
      (project.built call found) (project.stored call found).fs :=
  Build.keeps_storing _ _ _ _ _ _

theorem keeps_run (isFound : project.sources call = .ok found) :
    Keeps (Build.concludedPlaces call.config project.directory project.path)
      (project.built call found) (project.run call).fs :=
  (keeps_stored project call found).trans (concludes_run isFound).keeps

theorem loaded_options (project : Project) (call : BuildCall) :
    (project.loaded call).version = BuildCache.currentVersion ∧
      (project.loaded call).options = BuildCache.fingerprint call.config.passOptions :=
  BuildCache.load_version _ _ _

/-- What a build has loaded is what the cache file stands for, if it says anything at all. -/
theorem cacheAt?_of_loaded {relative : String} {entry : CachedFile}
    (known : (project.loaded call).files.get? relative = some entry) :
    call.before.cacheAt? (project.cachePlace call) = some (project.loaded call) := by
  obtain ⟨text, read, decoded⟩ := BuildCache.stored?_of_load known
  obtain ⟨bytes, stands, isText⟩ := Option.bind_eq_some_iff.mp read
  rw [FileSystem.cacheAt?, cachePlace, FileSystem.content?_of_read? stands, Option.bind_some,
    isText, Option.bind_some]
  exact decoded

/-- What the cache file stands for after a build: nothing, the cache of this build, or what it
stood for when the files were built. The latter happens only if the cache was not stored. -/
theorem cacheAt?_run (isFound : project.sources call = .ok found) :
    (project.run call).fs.cacheAt? (project.cachePlace call) = none ∨
      (project.run call).fs.cacheAt? (project.cachePlace call) =
        some (Build.updatedCache (project.loaded call) (project.outcomes call found)) ∨
      (project.run call).fs.cacheAt? (project.cachePlace call) =
          (project.built call found).cacheAt? (project.cachePlace call) ∧
        ¬ (call.config.incremental = true ∧ (project.stored call found).succeeded = true) := by
  rcases (concludes_run isFound).content?_eq (project.cachePlace call) with kept | published
  · have same : (project.run call).fs.cacheAt? (project.cachePlace call) =
        (project.stored call found).fs.cacheAt? (project.cachePlace call) := by
      rw [FileSystem.cacheAt?, kept, FileSystem.cacheAt?]
    rw [same]
    unfold stored Build.storing
    split
    · next incremental =>
        have saved := FileSystem.content?_save (project.built call found) project.directory
          (project.cachePath call)
          (Build.cacheBytes (project.loaded call) (project.outcomes call found))
        split at saved
        · exact Or.inr (Or.inl (Build.cacheAt?_eq_some_of_cache (loaded_options _ _).1 saved))
        · next failed =>
            refine Or.inr (Or.inr ⟨?_, fun both => failed both.2⟩)
            rw [FileSystem.cacheAt?, FileSystem.cacheAt?]
            exact congrArg (Option.bind · _) saved
    · next notIncremental => exact Or.inr (Or.inr ⟨rfl, fun both => notIncremental both.1⟩)
  · exact Or.inl (Build.cacheAt?_eq_none_of_manifest published)

/-- A build that uses the cache leaves the new one to be read. -/
theorem read?_cache (isFound : project.sources call = .ok found)
    (incremental : call.config.incremental = true)
    (wrote : (project.run call).result ≠ .error .file)
    (apart : ∀ manifest, call.config.manifestPath? project.path = some manifest →
      project.cachePlace call ≠ place project.directory manifest) :
    (project.run call).fs.read? project.directory (project.cachePath call) =
      some (Build.cacheBytes (project.loaded call) (project.outcomes call found)) := by
  have concludes := concludes_run isFound
  have isStored := (concludes.result_eq wrote).1
  refine concludes.read?_stored ?_ apart
  unfold stored Build.storing at isStored ⊢
  rw [if_pos incremental] at isStored ⊢
  exact FileSystem.read?_save isStored

/-- A build begins with the cache that the last one left. -/
theorem loaded_of_run {later : BuildCall} (isFound : project.sources call = .ok found)
    (incremental : call.config.incremental = true)
    (wrote : (project.run call).result ≠ .error .file)
    (apart : ∀ manifest, call.config.manifestPath? project.path = some manifest →
      project.cachePlace call ≠ place project.directory manifest)
    (sameState : later.before = (project.run call).fs)
    (sameOut : later.config.outDir = call.config.outDir)
    (sameOptions : later.config.passOptions = call.config.passOptions) :
    project.loaded later =
      Build.updatedCache (project.loaded call) (project.outcomes call found) := by
  have text := FileSystem.readText?_eq_some (read?_cache isFound incremental wrote apart)
  have samePath : project.cachePath later = project.cachePath call := by
    simp only [cachePath, Config.outPath, sameOut]
  have options := Build.updatedCache_options (project.loaded call) (project.outcomes call found)
  have loadedOptions := loaded_options project call
  rw [loaded, samePath, sameState, text, sameOptions,
    BuildCache.load_render _ (options.1.trans loadedOptions.1)
      (options.2.trans loadedOptions.2)]

/-- A build that succeeds reports its outcomes, none of which failed. -/
theorem report_of_succeeded {report : BuildReport} (isFound : project.sources call = .ok found)
    (succeeded : (project.run call).result = .ok report) :
    Build.failures (project.outcomes call found) = 0 ∧
      report = Build.report (project.outcomes call found)
        (call.config.manifestPath? project.path) := by
  have wrote : (project.run call).result ≠ .error .file := by
    rw [succeeded]
    nofun
  have result := ((concludes_run isFound).result_eq wrote).2
  rw [succeeded] at result
  split at result
  · next clear => exact ⟨clear, Except.ok.inj result⟩
  · cases result

theorem written_of_succeeded {report : BuildReport} (isFound : project.sources call = .ok found)
    (succeeded : (project.run call).result = .ok report) :
    ∀ outcome ∈ project.outcomes call found, ¬ outcome.IsUnwritten := by
  intro outcome member
  have clear := (report_of_succeeded isFound succeeded).1
  rw [Build.failures, List.countP_eq_zero] at clear
  exact FileOutcome.written_of_not_failed (by simpa using clear outcome member)

/-! ## The files of a build -/

theorem exists_stands (wellFormed : call.before.WellFormed)
    (isFound : project.sources call = .ok found) {file : SourceFile} (member : file ∈ found) :
    ∃ names, file.Stands call.before project.directory project.path names :=
  SourceFile.exists_stands wellFormed (sources_eq_ok isFound).2 member

theorem separates (wellFormed : call.before.WellFormed)
    (isFound : project.sources call = .ok found)
    (apart : ∀ file ∈ found,
      place project.directory file.path ∉ (project.context call).outputPlaces found) :
    (project.context call).Separates call.before found where
  reaches file member := by
    obtain ⟨names, stands⟩ := exists_stands wellFormed isFound member
    exact stands.reaches wellFormed
  apart := apart
  distinct file member other otherMember output otherOutput isOutput isOther same := by
    obtain ⟨names, stands⟩ := exists_stands wellFormed isFound member
    obtain ⟨otherNames, otherStands⟩ := exists_stands wellFormed isFound otherMember
    obtain ⟨within, below, rfl⟩ := Option.map_eq_some_iff.mp isOutput
    obtain ⟨otherWithin, otherBelow, rfl⟩ := Option.map_eq_some_iff.mp isOther
    exact stands.eq_of_place_output otherStands (Path.join_ne_empty stands.project_ne_empty)
      below otherBelow same

theorem cachePlace_not_output (wellFormed : call.before.WellFormed)
    (isFound : project.sources call = .ok found) :
    project.cachePlace call ∉ (project.context call).outputPlaces found := by
  rintro ⟨file, member, output, isOutput, same⟩
  obtain ⟨names, stands⟩ := exists_stands wellFormed isFound member
  obtain ⟨within, below, rfl⟩ := Option.map_eq_some_iff.mp isOutput
  exact stands.output_ne_cache (Path.join_ne_empty stands.project_ne_empty) below same

theorem cacheAt?_built (wellFormed : call.before.WellFormed)
    (isFound : project.sources call = .ok found) :
    (project.built call found).cacheAt? (project.cachePlace call) =
      call.before.cacheAt? (project.cachePlace call) := by
  have kept := Build.keeps_files (project.context call) call.before found
  rw [FileSystem.cacheAt?, FileSystem.cacheAt?, built,
    kept.contents _ (cachePlace_not_output wellFormed isFound)]

end Project

end SourceQuote

import SourceQuote.Proofs.Pass.Repositories
import SourceQuote.Proofs.Project.Footprint
import Mathlib.Data.Set.Function

/-!
Contract: whether outputs agree with the cache, and what a build that bypasses the cache makes of
it.

Owns: consistent states, that a build which uses the cache keeps them consistent and leaves a file
alone only if its output is right, and when a build that bypasses the cache keeps them consistent.

A build that bypasses the cache writes outputs but leaves the cache file as it is. If a listed
file has changed since its entry was made, the entry then speaks of another output.
-/

namespace SourceQuote

open SourceQuote.FileSystem (Keeps place)

/-- What occurs over the builds of a project: contents of sources, and options. -/
structure Occurring where
  contents : Set ByteArray
  options : Set PassOptions

namespace Project

/-- What is the same for all files, with the directories of a build but without its cache and
with other options. -/
def bareContext (project : Project) (call : BuildCall) (options : PassOptions) : BuildContext :=
  { project.context call with options := options, cache := none }

/-- A file with an entry in a cache, and the path of its output. -/
structure Caches (project : Project) (call : BuildCall) (cache : BuildCache) (file : SourceFile)
    (entry : CachedFile) (output : String) : Prop where
  isNamed : ∃ names, file.Named project.path names
  known : cache.files.get? file.relative = some entry
  isOutput : file.output? (project.context call) = some output

def cachedOutputs (project : Project) (call : BuildCall) (cache : BuildCache) : Set Location :=
  {location | ∃ file entry output, project.Caches call cache file entry output ∧
    place project.directory output = location}

/-- Whether bytes are what the pass gives under some options for a source with the digest of an
entry. -/
def Explains (project : Project) (call : BuildCall) (occurring : Occurring)
    (options : PassOptions) (file : SourceFile) (entry : CachedFile) (bytes : ByteArray) : Prop :=
  ∃ content ∈ occurring.contents, ∃ within transformed,
    entry.contentHash = Sha256.hexDigest content ∧
    Path.below? file.path (project.context call).root = some within ∧
    file.transformed (project.bareContext call options) within content = .ok transformed ∧
    bytes = transformed.source.toByteArray

/-- Whether outputs and cache agree: if a cache file stands that some options accept, and the
output of a file with an entry exists, the entry explains it. The directories are those of
`call`. -/
def Consistent (project : Project) (call : BuildCall) (occurring : Occurring)
    (fs : FileSystem) : Prop :=
  ∀ ⦃cache options file entry output bytes⦄,
    fs.cacheAt? (project.cachePlace call) = some cache →
    cache.version = BuildCache.currentVersion → options ∈ occurring.options →
    cache.options = BuildCache.fingerprint options →
    project.Caches call cache file entry output →
    fs.content? (place project.directory output) = some bytes →
    project.Explains call occurring options file entry bytes

/-- Whether the options of a build and what it reads are among what occurs. -/
structure Occurs (project : Project) (call : BuildCall) (occurring : Occurring) : Prop where
  options : call.config.passOptions ∈ occurring.options
  contents : ∀ content ∈ project.contents call, content ∈ occurring.contents

/-- Whether what a build writes besides the cache is what the cache says already: no listed file
has changed since its entry was made, nor have the options, and the manifest is none of the
outputs of the files with an entry. -/
structure CacheCurrent (project : Project) (call : BuildCall) (cache : BuildCache) : Prop where
  manifest : ∀ location ∈ project.manifestPlace? call,
    location ∉ project.cachedOutputs call cache
  entries : ∀ file ∈ project.listed call, ∀ entry,
    cache.files.get? file.relative = some entry →
      cache.options = BuildCache.fingerprint call.config.passOptions ∧
      ∀ content, call.before.read? project.directory file.path = some content →
        entry.contentHash = Sha256.hexDigest content

variable {project : Project} {call : BuildCall} {found : List SourceFile}
  {occurring : Occurring} {fs : FileSystem}

/-- Only the cache file and the outputs of the files in it matter. -/
theorem Consistent.congr {later : FileSystem} (consistent : project.Consistent call occurring fs)
    (sameCache : later.cacheAt? (project.cachePlace call) =
      fs.cacheAt? (project.cachePlace call))
    (sameOutputs : ∀ cache, fs.cacheAt? (project.cachePlace call) = some cache →
      ∀ location ∈ project.cachedOutputs call cache,
        later.content? location = fs.content? location) :
    project.Consistent call occurring later := by
  intro cache options file entry output bytes isCache version used accepted caches stands
  rw [sameCache] at isCache
  rw [sameOutputs cache isCache _ ⟨file, entry, output, caches, rfl⟩] at stands
  exact consistent isCache version used accepted caches stands

theorem consistent_of_absent (absent : fs.content? (project.cachePlace call) = none) :
    project.Consistent call occurring fs := by
  intro cache options file entry output bytes isCache
  rw [FileSystem.cacheAt?, absent] at isCache
  cases isCache

theorem Consistent.of_directories {other : BuildCall}
    (consistent : project.Consistent call occurring fs)
    (sameRoot : other.config.rootDir = call.config.rootDir)
    (sameOut : other.config.outDir = call.config.outDir) :
    project.Consistent other occurring fs := by
  have sameContext : ∀ options,
      project.bareContext other options = project.bareContext call options := by
    intro options
    simp only [bareContext, context, contextWith, Config.rootPath, Config.outPath, sameRoot, sameOut]
  have samePlace : project.cachePlace other = project.cachePlace call := by
    simp only [cachePlace, cachePath, Config.outPath, sameOut]
  intro cache options file entry output bytes isCache version used accepted caches stands
  rw [samePlace] at isCache
  have isOutput : file.output? (project.bareContext call options) = some output := by
    rw [← sameContext]
    exact caches.isOutput
  have explained := consistent isCache version used accepted
    ⟨caches.isNamed, caches.known, isOutput⟩ stands
  have sameBase : (project.context other).root = (project.context call).root := by
    simp only [context, contextWith, Config.rootPath, sameRoot]
  unfold Explains at explained ⊢
  rw [sameBase, sameContext]
  exact explained

/-! ## Builds that bypass the cache -/

/-- A build that bypasses the cache does not write the cache file, unless the manifest takes its
place. -/
theorem cacheAt?_of_bypassed (wellFormed : call.before.WellFormed)
    (isFound : project.sources call = .ok found)
    (bypassed : call.config.incremental = false) {cache : BuildCache}
    (stands : (project.run call).fs.cacheAt? (project.cachePlace call) = some cache) :
    call.before.cacheAt? (project.cachePlace call) = some cache := by
  have unstored : (project.stored call found).fs = project.built call found := by
    rw [stored, Build.storing, bypassed]
    rfl
  rcases (concludes_run isFound).content?_eq (project.cachePlace call) with kept | published
  · rw [← cacheAt?_built wellFormed isFound, ← stands, FileSystem.cacheAt?, FileSystem.cacheAt?,
      kept, unstored]
  · rw [Build.cacheAt?_eq_none_of_manifest published] at stands
    cases stands

theorem eq_of_caches {cache : BuildCache} {file other : SourceFile} {entry : CachedFile}
    {otherNames : List String} {output otherOutput : String}
    (caches : project.Caches call cache file entry output)
    (stands : other.Stands fs project.directory project.path otherNames)
    (otherIsOutput : other.output? (project.context call) = some otherOutput)
    (same : place project.directory output = place project.directory otherOutput) :
    file = other := by
  obtain ⟨names, isNamed⟩ := caches.isNamed
  obtain ⟨within, below, rfl⟩ := Option.map_eq_some_iff.mp caches.isOutput
  obtain ⟨otherWithin, otherBelow, rfl⟩ := Option.map_eq_some_iff.mp otherIsOutput
  rw [(Scan.sourceFile?_eq_some isNamed.named).1] at below
  rw [stands.path_eq] at otherBelow
  have sameNames := FileSystem.names_eq_of_place_output stands.project_ne_empty
    (Path.join_ne_empty stands.project_ne_empty) isNamed.nonempty stands.nonempty isNamed.proper
    stands.proper below otherBelow same
  subst sameNames
  exact Option.some.inj (isNamed.named.symm.trans stands.named)

/-- A build that bypasses the cache keeps a state consistent if the cache is current. -/
theorem Consistent.run_of_bypassed (consistent : project.Consistent call occurring call.before)
    (wellFormed : call.before.WellFormed) (bypassed : call.config.incremental = false)
    (apart : ∀ location ∈ project.inputPlaces call, location ∉ project.outputPlaces call)
    (occurs : project.Occurs call occurring)
    (distinct : Set.InjOn BuildCache.fingerprint occurring.options)
    (current : ∀ cache, call.before.cacheAt? (project.cachePlace call) = some cache →
      project.CacheCurrent call cache) :
    project.Consistent call occurring (project.run call).fs := by
  intro cache options file entry output bytes isCache version used accepted caches stands
  cases isFound : project.sources call with
  | error error =>
      rw [run_of_sources_error isFound] at isCache stands
      exact consistent isCache version used accepted caches stands
  | ok found =>
      have cacheBefore := cacheAt?_of_bypassed wellFormed isFound bypassed isCache
      have before : call.before.content? (place project.directory output) = some bytes → _ :=
        consistent cacheBefore version used accepted caches
      have cacheCurrent := current cache cacheBefore
      have notConcluded : place project.directory output ∉
          Build.concludedPlaces call.config project.directory project.path := by
        rintro (⟨incremental, _⟩ | ⟨path, named, same⟩)
        · rw [bypassed] at incremental
          cases incremental
        · refine cacheCurrent.manifest _ ?_ ⟨file, entry, output, caches, rfl⟩
          rw [manifestPlace?, named, ← same]
          rfl
      rw [(keeps_run isFound).contents _ notConcluded, built] at stands
      by_cases isWritten :
          place project.directory output ∈ (project.context call).outputPlaces found
      · obtain ⟨other, member, otherOutput, otherIsOutput, same⟩ := isWritten
        obtain ⟨otherNames, otherStands⟩ := exists_stands wellFormed isFound member
        obtain rfl := eq_of_caches caches otherStands otherIsOutput same.symm
        have kept := Build.sourcesKept_files (separates_of_apart wellFormed isFound apart)
        rcases kept.outputs file member output caches.isOutput with old | ⟨transformed, isExpected, new⟩
        · exact before (old.symm.trans stands)
        · -- The output is new, but the entry says the same of it.
          obtain ⟨content, within, read, below, passed⟩ := SourceFile.expected_eq_ok isExpected
          obtain ⟨sameOptions, digest⟩ :=
            cacheCurrent.entries file (by rwa [listed_eq isFound]) entry caches.known
          obtain rfl := distinct used occurs.options (accepted.symm.trans sameOptions)
          refine ⟨content, occurs.contents content ?_, within, transformed, digest content read,
            below, passed, Option.some.inj (stands.symm.trans new)⟩
          rw [contents, listed_eq isFound]
          exact List.mem_filterMap.mpr ⟨file, member, read⟩
      · refine before ?_
        rw [← stands]
        exact ((Build.keeps_files _ _ _).contents _ isWritten).symm

/-! ## Builds that use the cache -/

/-- Whether a file that did not fail, be it built or left alone, has the digest of what it holds,
and its output stands and is what the pass gives for that. -/
def BuiltRightly (project : Project) (call : BuildCall) (now : FileSystem)
    (file : SourceFile) (outcome : FileOutcome) : Prop :=
  outcome.isFailed = false →
    ∃ output content transformed, file.output? (project.context call) = some output ∧
      call.before.read? project.directory file.path = some content ∧
      outcome.contentHash = Sha256.hexDigest content ∧
      file.expected (project.context call) call.before = .ok transformed ∧
      now.read? project.directory output = some transformed.source.toByteArray

/-- In a consistent state, what a build remembers of a file explains its output. -/
theorem Consistent.remembered_true (consistent : project.Consistent call occurring call.before)
    (wellFormed : call.before.WellFormed) (plain : call.before.PlainNames)
    (occurs : project.Occurs call occurring)
    (distinct : Set.InjOn Sha256.hexDigest occurring.contents)
    (isFound : project.sources call = .ok found) {file : SourceFile} (member : file ∈ found)
    {entry : CachedFile} {output : String} {bytes : ByteArray}
    (remembered : file.remembered? (project.context call) call.before = some entry)
    (isOutput : file.output? (project.context call) = some output)
    (stands : call.before.content? (place project.directory output) = some bytes) :
    ∃ transformed, file.expected (project.context call) call.before = .ok transformed ∧
      bytes = transformed.source.toByteArray := by
  obtain ⟨content, read, isEntry, sameHash⟩ := loaded_of_remembered remembered
  obtain ⟨names, fileStands⟩ := exists_stands wellFormed isFound member
  obtain ⟨version, accepted⟩ := loaded_options project call
  obtain ⟨old, isOld, within, transformed, digest, below, passed, same⟩ :=
    consistent (cacheAt?_of_loaded isEntry) version occurs.options accepted
      ⟨⟨names, fileStands.isNamed plain⟩, isEntry, isOutput⟩ stands
  have isContent : content ∈ occurring.contents := by
    refine occurs.contents content ?_
    rw [contents, listed_eq isFound]
    exact List.mem_filterMap.mpr ⟨file, member, read⟩
  obtain rfl := distinct isOld isContent (digest.symm.trans sameHash)
  exact ⟨transformed, (SourceFile.expected_eq read below).trans passed, same⟩

/-- One step: in a consistent state, a file is built rightly. -/
theorem Consistent.builtRightly_of_builds
    (consistent : project.Consistent call occurring call.before)
    (wellFormed : call.before.WellFormed) (plain : call.before.PlainNames)
    (occurs : project.Occurs call occurring)
    (distinct : Set.InjOn Sha256.hexDigest occurring.contents)
    (isFound : project.sources call = .ok found)
    (separates : (project.context call).Separates call.before found)
    {file : SourceFile} (member : file ∈ found) {before after : FileSystem}
    {outcome : FileOutcome}
    (kept : Build.SourcesKept (project.context call) call.before found before)
    (built : SourceFile.Builds (project.context call) before file after outcome) :
    outcome.relative = file.relative ∧ project.BuiltRightly call after file outcome := by
  have same := SourceFile.Builds.read?_eq separates member kept.keeps
  cases built with
  | unreadable => exact ⟨rfl, nofun⟩
  | outside => exact ⟨rfl, nofun⟩
  | refused => exact ⟨rfl, nofun⟩
  | produced read below passed =>
      rw [same] at read
      refine ⟨rfl, fun succeeded => ?_⟩
      have wrote := FileOutcome.succeeded_of_written (FileOutcome.written_of_not_failed succeeded)
      exact ⟨_, _, _, SourceFile.output?_eq below, read, rfl,
        (SourceFile.expected_eq read below).trans passed, FileSystem.read?_save wrote⟩
  | unchanged read below cached =>
      rw [same] at read
      refine ⟨rfl, fun _ => ?_⟩
      obtain ⟨remembered, bytes, stands⟩ := SourceFile.remembered?_of_cached? read cached
      have isOutput := SourceFile.output?_eq below
      have holds := FileSystem.content?_of_read? stands
      rcases kept.outputs file member _ isOutput with old | ⟨transformed, isExpected, new⟩
      · rw [old] at holds
        obtain ⟨transformed, isExpected, rfl⟩ := consistent.remembered_true wellFormed plain occurs
          distinct isFound member remembered isOutput holds
        exact ⟨_, _, transformed, isOutput, read, rfl, isExpected, stands⟩
      · refine ⟨_, _, transformed, isOutput, read, rfl, isExpected, ?_⟩
        rw [← new, holds]
        exact stands

/-- A build that starts in a consistent state builds all files rightly that do not fail. -/
theorem Consistent.builtRightly (consistent : project.Consistent call occurring call.before)
    (wellFormed : call.before.WellFormed) (plain : call.before.PlainNames)
    (apart : ∀ location ∈ project.inputPlaces call, location ∉ project.outputPlaces call)
    (manifest : ∀ location ∈ project.manifestPlace? call, location ∉ project.outputPlaces call)
    (occurs : project.Occurs call occurring)
    (distinct : Set.InjOn Sha256.hexDigest occurring.contents)
    (isFound : project.sources call = .ok found) :
    List.Forall₂ (fun file outcome => outcome.relative = file.relative ∧
        project.BuiltRightly call (project.run call).fs file outcome) found
      (project.outcomes call found) := by
  have separates := separates_of_apart wellFormed isFound apart
  have anything : ∀ outcome ∈ project.outcomes call found, (fun _ => True) outcome :=
    fun _ _ => trivial
  have results := Build.files_results
    (Build.SourcesKept (project.context call) call.before found)
    (fun file outcome now => file ∈ found ∧ outcome.relative = file.relative ∧
      project.BuiltRightly call now file outcome) ?_ ?_ anything (.refl _ _ _)
  · refine results.imp fun file outcome ⟨member, relative, rightly⟩ => ?_
    refine ⟨relative, fun succeeded => ?_⟩
    obtain ⟨output, content, transformed, isOutput, read, digest, isExpected, stands⟩ :=
      rightly succeeded
    refine ⟨output, content, transformed, isOutput, read, digest, isExpected,
      (keeps_run isFound).read? ?_ stands⟩
    exact output_not_concluded wellFormed isFound manifest ⟨file, member, output, isOutput, rfl⟩
  · intro file member before after outcome kept built _
    exact ⟨kept.step separates member built, member, consistent.builtRightly_of_builds
      wellFormed plain occurs distinct isFound separates member kept built⟩
  · rintro file member other otherMember before after outcome otherOutcome kept built _
      ⟨_, relative, rightly⟩
    refine ⟨member, relative, fun succeeded => ?_⟩
    obtain ⟨output, content, transformed, isOutput, read, digest, isExpected, stands⟩ :=
      rightly succeeded
    exact ⟨output, content, transformed, isOutput, read, digest, isExpected,
      built.read?_output separates otherMember member kept.keeps isOutput isExpected stands⟩

/-- A build that uses the cache keeps a state consistent. -/
theorem Consistent.run_of_incremental
    (consistent : project.Consistent call occurring call.before)
    (wellFormed : call.before.WellFormed) (plain : call.before.PlainNames)
    (incremental : call.config.incremental = true)
    (wrote : (project.run call).result ≠ .error .file)
    (apart : ∀ location ∈ project.inputPlaces call, location ∉ project.outputPlaces call)
    (manifest : ∀ location ∈ project.manifestPlace? call, location ∉ project.outputPlaces call)
    (occurs : project.Occurs call occurring)
    (contentsDistinct : Set.InjOn Sha256.hexDigest occurring.contents)
    (optionsDistinct : Set.InjOn BuildCache.fingerprint occurring.options) :
    project.Consistent call occurring (project.run call).fs := by
  intro cache options file entry output bytes isCache version used accepted caches stands
  cases isFound : project.sources call with
  | error error =>
      rw [run_of_sources_error isFound] at isCache stands
      exact consistent isCache version used accepted caches stands
  | ok found =>
      have isStored := ((concludes_run isFound).result_eq wrote).1
      have updated : cache =
          Build.updatedCache (project.loaded call) (project.outcomes call found) := by
        rcases cacheAt?_run isFound with gone | updated | ⟨_, unstored⟩
        · rw [gone] at isCache
          cases isCache
        · exact Option.some.inj (isCache.symm.trans updated)
        · exact absurd ⟨incremental, isStored⟩ unstored
      have sameOptions : options = call.config.passOptions := by
        refine optionsDistinct used occurs.options ?_
        rw [← accepted, updated, (Build.updatedCache_options _ _).2, (loaded_options _ _).2]
      have known := caches.known
      rw [updated] at known
      obtain ⟨outcome, isOutcome, relative, digest, status, built⟩ := Build.get?_updatedCache known
      obtain ⟨other, member, sameRelative, rightly⟩ := exists_left_of_mem
        (consistent.builtRightly wellFormed plain apart manifest occurs contentsDistinct isFound)
        isOutcome
      have succeeded : outcome.isFailed = false := by rw [FileOutcome.isFailed, built]
      obtain ⟨otherOutput, content, transformed, otherIsOutput, read, isDigest, isExpected,
        isRead⟩ := rightly succeeded
      obtain ⟨otherNames, otherStands⟩ := exists_stands wellFormed isFound member
      obtain ⟨names, isNamed⟩ := caches.isNamed
      obtain rfl := isNamed.eq_of_relative_eq (otherStands.isNamed plain)
        (relative.symm.trans sameRelative)
      rw [caches.isOutput] at otherIsOutput
      cases otherIsOutput
      obtain ⟨sameContent, within, sameRead, below, passed⟩ := SourceFile.expected_eq_ok isExpected
      rw [context_directory, read] at sameRead
      cases sameRead
      have holds := FileSystem.content?_of_read? isRead
      subst sameOptions
      refine ⟨content, occurs.contents content ?_, within, transformed, digest.symm.trans isDigest,
        below, passed, Option.some.inj (stands.symm.trans holds)⟩
      rw [contents, listed_eq isFound]
      exact List.mem_filterMap.mpr ⟨file, member, read⟩

/-- What lies between a build and a later one with the same directories: neither the cache file
nor the outputs of the files in it are touched. Nothing that the later one writes besides the
cache is a source or another output. -/
structure Revisits (project : Project) (call later : BuildCall) : Prop where
  sameRoot : later.config.rootDir = call.config.rootDir
  sameOut : later.config.outDir = call.config.outDir
  wellFormed : later.before.WellFormed
  plain : later.before.PlainNames
  sameCache : later.before.content? (project.cachePlace call) =
    (project.run call).fs.content? (project.cachePlace call)
  sameOutputs : ∀ cache, (project.run call).fs.cacheAt? (project.cachePlace call) = some cache →
    ∀ location ∈ project.cachedOutputs call cache,
      later.before.content? location = (project.run call).fs.content? location
  apart : ∀ location ∈ project.inputPlaces later, location ∉ project.outputPlaces later
  manifest : ∀ location ∈ project.manifestPlace? later, location ∉ project.outputPlaces later

/-- Builds that bypass the cache, if the cache is current: the state stays consistent, and after
a later build every file that did not fail, also one that was left alone, has the output that the
pass gives for what the file holds then. -/
theorem consistent_of_bypassed (consistent : project.Consistent call occurring call.before)
    (wellFormed : call.before.WellFormed) (bypassed : call.config.incremental = false)
    (apart : ∀ location ∈ project.inputPlaces call, location ∉ project.outputPlaces call)
    (occurs : project.Occurs call occurring)
    (contentsDistinct : Set.InjOn Sha256.hexDigest occurring.contents)
    (optionsDistinct : Set.InjOn BuildCache.fingerprint occurring.options)
    (current : ∀ cache, call.before.cacheAt? (project.cachePlace call) = some cache →
      project.CacheCurrent call cache) :
    project.Consistent call occurring (project.run call).fs ∧
      ∀ later laterFound, project.Revisits call later → project.Occurs later occurring →
        project.sources later = .ok laterFound →
        List.Forall₂ (fun file outcome => outcome.relative = file.relative ∧
            project.BuiltRightly later (project.run later).fs file outcome) laterFound
          (project.outcomes later laterFound) := by
  have stays : project.Consistent call occurring (project.run call).fs :=
    consistent.run_of_bypassed wellFormed bypassed apart occurs optionsDistinct current
  refine ⟨stays, fun later laterFound revisits laterOccurs isFound => ?_⟩
  have sameCache : later.before.cacheAt? (project.cachePlace call) =
      (project.run call).fs.cacheAt? (project.cachePlace call) := by
    rw [FileSystem.cacheAt?, revisits.sameCache, FileSystem.cacheAt?]
  have laterConsistent : project.Consistent later occurring later.before :=
    (stays.congr sameCache revisits.sameOutputs).of_directories revisits.sameRoot
      revisits.sameOut
  exact laterConsistent.builtRightly revisits.wellFormed revisits.plain revisits.apart
    revisits.manifest laterOccurs contentsDistinct isFound

end Project

/-! ## A file that is edited -/

namespace Sample

open SourceQuote.Project

def quietBuild (incremental : Bool) (before : FileSystem) : BuildCall :=
  ⟨before, [], { included := ["*.ts"], manifest := none, incremental := incremental }⟩

def plainFile : SourceFile := ⟨"/p/a.ts", "a.ts", .typeScript⟩

def cachingBuild : BuildCall := quietBuild true (holding [("/p/a.ts", "")])

/-- The sources are built once more, without the cache. -/
def repeatedBuild : BuildCall := quietBuild false (project.run cachingBuild).fs

/-- A source is edited, and then built without the cache. -/
def editedBuild : BuildCall :=
  quietBuild false ((project.run cachingBuild).fs.put ["p", "a.ts"] (.file "\n".toByteArray))

def plainCache : BuildCache :=
  Build.updatedCache (project.loaded cachingBuild) (project.outcomes cachingBuild [plainFile])

/-- What the first build finds, knows afterwards and leaves behind. -/
theorem checked_cachingBuild : cachingBuild.before.WellFormed ∧ cachingBuild.before.PlainNames ∧
    cachingBuild.before.content? (project.cachePlace cachingBuild) = none ∧
    project.sources cachingBuild = .ok [plainFile] ∧
    (∀ location ∈ project.inputPlaces cachingBuild,
      location ∉ project.outputPlaces cachingBuild) ∧
    project.contents cachingBuild = ["".toByteArray] ∧
    (project.run cachingBuild).result ≠ .error .file ∧
    (project.outcomes cachingBuild [plainFile]).map FileOutcome.relative = ["a.ts"] ∧
    (plainCache.files.get? plainFile.relative).map CachedFile.contentHash =
      some (Sha256.hexDigest "".toByteArray) ∧
    (project.run cachingBuild).fs.isDirectory ["p", "a.ts"] = false := by
  decide +kernel

theorem digest_plainCache : (plainCache.files.get? plainFile.relative).map CachedFile.contentHash =
    some (Sha256.hexDigest "".toByteArray) := by
  obtain ⟨_, _, _, _, _, _, _, _, digest, _⟩ := checked_cachingBuild
  exact digest

theorem cacheAt?_cachingBuild :
    (project.run cachingBuild).fs.cacheAt? (project.cachePlace cachingBuild) =
      some plainCache := by
  obtain ⟨_, _, _, isFound, _, _, wrote, _⟩ := checked_cachingBuild
  have read := read?_cache isFound rfl wrote nofun
  exact Build.cacheAt?_eq_some_of_cache (loaded_options _ _).1
    (FileSystem.content?_of_read? read)

theorem plainCache_options : plainCache.version = BuildCache.currentVersion ∧
    plainCache.options = BuildCache.fingerprint {} := by
  have options := Build.updatedCache_options (project.loaded cachingBuild)
    (project.outcomes cachingBuild [plainFile])
  have loaded := loaded_options project cachingBuild
  exact ⟨options.1.trans loaded.1, options.2.trans loaded.2⟩

def everything : Occurring := ⟨Set.univ, Set.univ⟩

theorem isNamed_plainFile : plainFile.Named project.path ["a.ts"] :=
  ⟨by decide, by decide, by decide, by decide⟩

/-- A file without marked classes passes as it is. -/
theorem transformed_unmarked {text : String} (unmarked : text ≠ markedSource)
    {context : BuildContext} (isParser : context.parser = parser) (file : SourceFile)
    (within : String) :
    file.transformed context within text.toByteArray = .ok ⟨text, []⟩ := by
  have parsed : file.unit context within text.toByteArray =
      .ok ⟨Path.forwardSlashes within, file.dialect, text,
        node "program" none true 0 text.utf8ByteSize []⟩ := by
    have isText : file.text text.toByteArray = .ok text := by
      rw [SourceFile.text, FileSystem.fromUTF8?_toByteArray]
    rw [SourceFile.unit, isText]
    change SourceUnit.parse context.parser _ text _ = _
    simp only [SourceUnit.parse, isParser, parser, if_neg unmarked]
    rfl
  rw [SourceFile.transformed, parsed]
  change Except.ok (⟨Edit.apply text [], []⟩ : Transformed) = _
  rw [Edit.apply_nil]

theorem exists_text_of_transformed {file : SourceFile} {context : BuildContext}
    {within : String} {content : ByteArray} {transformed : Transformed}
    (passed : file.transformed context within content = .ok transformed) :
    ∃ text : String, content = text.toByteArray := by
  obtain ⟨unit, parsed, _⟩ := SourceFile.transformed_eq_ok passed
  unfold SourceFile.unit SourceFile.text at parsed
  cases isText : String.fromUTF8? content with
  | none =>
      rw [isText] at parsed
      cases parsed
  | some text => exact ⟨text, FileSystem.toByteArray_of_fromUTF8? isText⟩

/-- What the build after the edit finds and leaves behind. -/
theorem checked_editedBuild : editedBuild.before.WellFormed ∧
    project.sources editedBuild = .ok [plainFile] ∧
    plainFile.output? (project.context editedBuild) = some "/p/dist/a.ts" ∧
    project.cachePlace editedBuild ≠ ["p", "a.ts"] ∧
    editedBuild.before.content? (place project.directory "/p/dist/a.ts") =
      some "".toByteArray ∧
    (project.concludedWith editedBuild (project.loaded editedBuild) [plainFile]).1.content?
      (place project.directory "/p/dist/a.ts") = some "\n".toByteArray ∧
    Sha256.hexDigest "".toByteArray ≠ Sha256.hexDigest "\n".toByteArray ∧
    Sha256.hexDigest "".toByteArray ≠ Sha256.hexDigest markedSource.toByteArray := by
  decide +kernel

theorem sources_editedBuild : project.sources editedBuild = .ok [plainFile] :=
  checked_editedBuild.2.1

theorem output?_plainFile :
    plainFile.output? (project.context editedBuild) = some "/p/dist/a.ts" :=
  checked_editedBuild.2.2.1

theorem content?_editedBuild {location : Location} (elsewhere : location ≠ ["p", "a.ts"]) :
    editedBuild.before.content? location =
      (project.run cachingBuild).fs.content? location := by
  obtain ⟨_, _, _, _, _, _, _, _, _, free⟩ := checked_cachingBuild
  exact (FileSystem.keeps_put_file free _).contents location elsewhere

theorem cacheAt?_beforeEdited :
    editedBuild.before.cacheAt? (project.cachePlace editedBuild) = some plainCache := by
  obtain ⟨_, _, _, elsewhere, _⟩ := checked_editedBuild
  rw [← cacheAt?_cachingBuild, FileSystem.cacheAt?, FileSystem.cacheAt?,
    content?_editedBuild elsewhere]
  rfl

theorem cacheAt?_editedBuild :
    (project.run editedBuild).fs.cacheAt? (project.cachePlace editedBuild) =
      some plainCache := by
  have untouched : project.cachePlace editedBuild ∉
      Build.concludedPlaces editedBuild.config project.directory project.path := by
    rintro (⟨incremental, _⟩ | ⟨path, named, _⟩)
    · cases incremental
    · cases named
  rw [← cacheAt?_beforeEdited, ← cacheAt?_built checked_editedBuild.1 sources_editedBuild,
    FileSystem.cacheAt?, FileSystem.cacheAt?,
    (keeps_run sources_editedBuild).contents _ untouched]

/-- The only entry of the cache explains the only output, whatever the options are. -/
theorem consistent_editedBuild :
    project.Consistent editedBuild everything editedBuild.before := by
  intro cache options file entry output bytes isCache _ _ _ caches stands
  obtain rfl := Option.some.inj (isCache.symm.trans cacheAt?_beforeEdited)
  have relative : file.relative = "a.ts" := by
    obtain ⟨outcome, isOutcome, same, _⟩ := Build.get?_updatedCache caches.known
    obtain ⟨_, _, _, _, _, _, _, relatives, _⟩ := checked_cachingBuild
    rw [← same]
    exact List.mem_singleton.mp (relatives ▸ List.mem_map_of_mem isOutcome)
  obtain ⟨names, isNamed⟩ := caches.isNamed
  obtain rfl := isNamed.eq_of_relative_eq isNamed_plainFile relative
  obtain rfl := Option.some.inj (caches.isOutput.symm.trans output?_plainFile)
  obtain ⟨_, _, _, _, holds, _⟩ := checked_editedBuild
  obtain rfl := Option.some.inj (stands.symm.trans holds)
  have digest := digest_plainCache
  rw [caches.known] at digest
  exact ⟨"".toByteArray, trivial, "a.ts", ⟨"", []⟩, Option.some.inj digest, by decide,
    transformed_unmarked (by decide) rfl _ _, rfl⟩

def unedited : Occurring := ⟨{"".toByteArray}, {{}}⟩

theorem occurs_unedited {call : BuildCall} (sameOptions : call.config.passOptions = {})
    (sameContents : project.contents call = ["".toByteArray]) :
    project.Occurs call unedited := by
  refine ⟨sameOptions, fun content member => ?_⟩
  rw [sameContents] at member
  exact List.mem_singleton.mp member

theorem before_repeatedBuild : repeatedBuild.before = (project.run cachingBuild).fs := by
  rw [repeatedBuild, quietBuild]

theorem cachePlace_repeatedBuild :
    project.cachePlace repeatedBuild = project.cachePlace cachingBuild := by
  simp only [cachePlace, cachePath, Config.outPath, repeatedBuild, cachingBuild, quietBuild]

theorem consistent_cachingBuild :
    project.Consistent cachingBuild unedited (project.run cachingBuild).fs := by
  obtain ⟨wellFormed, plain, absent, _, apart, contents, wrote, _⟩ := checked_cachingBuild
  have consistent : project.Consistent cachingBuild unedited cachingBuild.before :=
    consistent_of_absent absent
  exact consistent.run_of_incremental wellFormed plain rfl wrote apart nofun
    (occurs_unedited rfl contents) (Set.injOn_singleton _ _) (Set.injOn_singleton _ _)

/-- What the repeated build finds. -/
theorem checked_repeatedBuild : repeatedBuild.before.WellFormed ∧
    project.listed repeatedBuild = [plainFile] ∧
    (∀ location ∈ project.inputPlaces repeatedBuild,
      location ∉ project.outputPlaces repeatedBuild) ∧
    project.contents repeatedBuild = ["".toByteArray] ∧
    repeatedBuild.before.read? project.directory plainFile.path = some "".toByteArray := by
  decide +kernel

end Sample

namespace Project

open Sample

theorem consistent_of_bypassed_repeated :
    repeatedBuild.config.incremental = false ∧
    project.Consistent repeatedBuild unedited (project.run repeatedBuild).fs := by
  have consistent : project.Consistent repeatedBuild unedited repeatedBuild.before := by
    rw [before_repeatedBuild]
    exact consistent_cachingBuild.of_directories (by decide) (by decide)
  obtain ⟨wellFormed, listed, apart, contents, holds⟩ := checked_repeatedBuild
  refine ⟨by decide, (consistent_of_bypassed consistent wellFormed (by decide) apart
    (occurs_unedited (by decide) contents) (Set.injOn_singleton _ _)
    (Set.injOn_singleton _ _) fun cache isCache => ?_).1⟩
  rw [before_repeatedBuild, cachePlace_repeatedBuild, cacheAt?_cachingBuild] at isCache
  obtain rfl := Option.some.inj isCache
  refine ⟨nofun, fun file member entry known => ?_⟩
  rw [listed] at member
  obtain rfl := List.mem_singleton.mp member
  refine ⟨plainCache_options.2, fun content read => ?_⟩
  rw [holds] at read
  cases read
  have digest := digest_plainCache
  rw [known] at digest
  exact Option.some.inj digest

/-- A state is consistent, a source is edited and built without the cache, and the state is no
longer consistent. -/
theorem inconsistent_of_edited :
    editedBuild.config.incremental = false ∧ editedBuild.config.validate = .ok () ∧
    project.Consistent editedBuild everything editedBuild.before ∧
    ¬ project.Consistent editedBuild everything (project.run editedBuild).fs := by
  refine ⟨by decide, rfl, consistent_editedBuild, fun consistent => ?_⟩
  obtain ⟨entry, known, digest⟩ := Option.map_eq_some_iff.mp digest_plainCache
  obtain ⟨_, _, _, _, _, holds, differs, differsMarked⟩ := checked_editedBuild
  rw [← (run_of_loaded sources_editedBuild rfl).1] at holds
  obtain ⟨content, _, within, transformed, sameDigest, _, passed, same⟩ :=
    consistent cacheAt?_editedBuild plainCache_options.1 (Set.mem_univ _) plainCache_options.2
      ⟨⟨_, isNamed_plainFile⟩, known, output?_plainFile⟩ holds
  rw [digest] at sameDigest
  obtain ⟨text, rfl⟩ := exists_text_of_transformed passed
  by_cases marked : text = markedSource
  · subst marked
    exact differsMarked sameDigest
  · rw [transformed_unmarked marked rfl] at passed
    cases passed
    rw [← same] at sameDigest
    exact differs sameDigest

end Project

end SourceQuote

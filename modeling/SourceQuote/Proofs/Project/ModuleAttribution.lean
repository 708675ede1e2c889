import SourceQuote.Proofs.Pass.Repositories
import SourceQuote.Proofs.Project.Footprint
import SourceQuote.Proofs.Project.History

/-!
Contract: which modules the repositories of a manifest are attributed to.

Owns: the module names that a build gives to a file, and the theorem that a manifest holds no
other ones than this build or an earlier one gave.

The base of module names is no part of what a cache is checked by. A file that is served from the
cache keeps the module name of the build that made the entry, even if the base has changed since.
-/

namespace SourceQuote.Project

variable {project : Project} {call : BuildCall} {found : List SourceFile}

/-- Whether a build lists a file under a relative path and its base gives that file a module
name. -/
def Attributes (project : Project) (call : BuildCall) (relative moduleName : String) : Prop :=
  ∃ found, project.sources call = .ok found ∧
    ∃ file ∈ found, file.relative = relative ∧
      ∃ within, Path.below? file.path (call.config.rootPath project.path) = some within ∧
        moduleName = Path.moduleName within

/-- Whether all repositories of a file have module names that one of some builds gave it. -/
def Attributed (project : Project) (calls : List BuildCall) (relative : String)
    (repositories : List Repository) : Prop :=
  ∀ repository ∈ repositories, ∃ call ∈ calls,
    project.Attributes call relative repository.classId.moduleName

def CacheAttributed (project : Project) (calls : List BuildCall) (cache : BuildCache) : Prop :=
  ∀ relative entry, cache.files.get? relative = some entry →
    project.Attributed calls relative entry.repositories

theorem Attributed.grow {calls : List BuildCall} {relative : String}
    {repositories : List Repository} (attributed : project.Attributed calls relative repositories)
    (call : BuildCall) : project.Attributed (call :: calls) relative repositories := by
  intro repository member
  obtain ⟨earlier, isEarlier, attributes⟩ := attributed repository member
  exact ⟨earlier, List.mem_cons_of_mem _ isEarlier, attributes⟩

/-- One step: a file that is built now is named by this build, and one that is served from the
cache is named as the cache has it. -/
theorem attributed_of_builds {earlier : List BuildCall} {file : SourceFile}
    {before after : FileSystem} {outcome : FileOutcome}
    (known : ∀ cache, call.before.cacheAt? (project.cachePlace call) = some cache →
      project.CacheAttributed earlier cache)
    (isFound : project.sources call = .ok found) (member : file ∈ found)
    (built : SourceFile.Builds (project.context call) before file after outcome) :
    outcome.relative = file.relative ∧
      project.Attributed (call :: earlier) outcome.relative outcome.repositories := by
  cases built with
  | unreadable => exact ⟨rfl, nofun⟩
  | outside => exact ⟨rfl, nofun⟩
  | refused => exact ⟨rfl, nofun⟩
  | unchanged read below cached =>
      refine ⟨rfl, ?_⟩
      obtain ⟨fresh, _⟩ := Option.filter_eq_some_iff.mp cached
      obtain ⟨cache, isCache, isFresh⟩ := Option.bind_eq_some_iff.mp fresh
      have isLoaded : project.loaded call = cache := by
        change (if call.config.incremental then some (project.loaded call) else none) =
          some cache at isCache
        split at isCache
        · exact Option.some.inj isCache
        · cases isCache
      subst isLoaded
      have entry := (Option.filter_eq_some_iff.mp isFresh).1
      exact (known _ (cacheAt?_of_loaded entry) _ _ entry).grow call
  | produced read below passed =>
      refine ⟨rfl, ?_⟩
      intro repository isRepository
      unfold FileOutcome.repositories at isRepository
      dsimp only at isRepository
      split at isRepository
      · cases isRepository
      · next status repositories succeeded =>
          split at succeeded
          · cases succeeded
            exact ⟨call, List.mem_cons_self, found, isFound, file, member, rfl, _, below,
              SourceFile.moduleName_of_transformed passed isRepository⟩
          · cases succeeded

theorem attributed_outcomes {earlier : List BuildCall}
    (known : ∀ cache, call.before.cacheAt? (project.cachePlace call) = some cache →
      project.CacheAttributed earlier cache)
    (isFound : project.sources call = .ok found) :
    List.Forall₂ (fun file outcome => outcome.relative = file.relative ∧
        project.Attributed (call :: earlier) outcome.relative outcome.repositories)
      found (project.outcomes call found) := by
  have anything : ∀ outcome ∈ project.outcomes call found, (fun _ => True) outcome :=
    fun _ _ => trivial
  refine Build.files_results (fun _ => True) (fun file outcome _ =>
    outcome.relative = file.relative ∧
      project.Attributed (call :: earlier) outcome.relative outcome.repositories)
    ?_ ?_ anything trivial
  · intro file member before after outcome _ built _
    exact ⟨trivial, attributed_of_builds known isFound member built⟩
  · exact fun _ _ _ _ _ _ _ _ _ _ _ result => result

theorem cacheAttributed {earlier : List BuildCall} (history : project.History (call :: earlier))
    {cache : BuildCache}
    (stands : call.before.cacheAt? (project.cachePlace call) = some cache) :
    project.CacheAttributed earlier cache := by
  refine history.cache_induction ?_ ?_ stands
  · intro call earlier cache attributed relative entry known
    exact (attributed relative entry known).grow call
  · intro call earlier found _ isFound known relative entry isEntry
    obtain ⟨outcome, member, rfl, _, status, built⟩ := Build.get?_updatedCache isEntry
    obtain ⟨file, _, _, attributed⟩ :=
      exists_left_of_mem (attributed_outcomes known isFound) member
    have repositories : outcome.repositories = entry.repositories := by
      rw [FileOutcome.repositories, built]
    rwa [repositories] at attributed

/-- The modules of a manifest. Every repository belongs to a file that the build lists, and its
module is the one that the base of this build or of an earlier one gives that file. So it is the
one that this build's own base gives if the base has never changed and names are plain. -/
theorem manifest_attributed {earlier : List BuildCall} {report : BuildReport} {path : String}
    (history : project.History (call :: earlier))
    (succeeded : (project.run call).result = .ok report)
    (named : call.config.manifestPath? project.path = some path) :
    ∃ found text manifest, project.sources call = .ok found ∧
      (project.run call).fs.readText? project.directory path = some text ∧
      Manifest.parse path text = .ok manifest ∧
      ∀ repository ∈ manifest.repositories, ∃ file ∈ found,
        (∃ origin ∈ call :: earlier,
          project.Attributes origin file.relative repository.classId.moduleName) ∧
        ((∀ origin ∈ earlier, origin.config.rootDir = call.config.rootDir) →
          (∀ origin ∈ call :: earlier, origin.before.PlainNames) →
          ∃ within, Path.below? file.path (call.config.rootPath project.path) = some within ∧
            repository.classId.moduleName = Path.moduleName within) := by
  cases isFound : project.sources call with
  | error error =>
      rw [run_of_sources_error isFound] at succeeded
      cases succeeded
  | ok found =>
      have read := (concludes_run isFound).read?_manifest succeeded named
      refine ⟨found, _, _, rfl, FileSystem.readText?_eq_some read, Manifest.parse_render _ rfl, ?_⟩
      intro repository member
      have listed : repository ∈ Build.repositories (project.outcomes call found) := by
        simpa [Manifest.ofRepositories] using member
      obtain ⟨outcome, isOutcome, isRepository⟩ := List.mem_flatMap.mp listed
      obtain ⟨file, isFile, same, attributed⟩ := exists_left_of_mem
        (attributed_outcomes (fun _ => cacheAttributed history) isFound) isOutcome
      rw [same] at attributed
      obtain ⟨origin, isOrigin, attributes⟩ := attributed repository isRepository
      refine ⟨file, isFile, ⟨origin, isOrigin, attributes⟩, fun sameRoot plain => ?_⟩
      obtain ⟨originFound, isOriginFound, other, isOther, sameRelative, within, below, isModule⟩ :=
        attributes
      have rootDir : origin.config.rootDir = call.config.rootDir := by
        rcases List.mem_cons.mp isOrigin with rfl | isEarlier
        · rfl
        · exact sameRoot origin isEarlier
      obtain ⟨names, stands⟩ := exists_stands
        (history.wellFormed call List.mem_cons_self) isFound isFile
      obtain ⟨otherNames, otherStands⟩ := exists_stands
        (history.wellFormed origin isOrigin) isOriginFound isOther
      obtain rfl := otherStands.eq_of_relative_eq stands (plain origin isOrigin)
        (plain call List.mem_cons_self) sameRelative
      rw [Config.rootPath, rootDir] at below
      exact ⟨within, below, isModule⟩

end SourceQuote.Project

/-! ## A base that changes -/

namespace SourceQuote.Sample

open SourceQuote.Project

def basedAt (rootDir : String) (before : FileSystem) : BuildCall :=
  ⟨before, [], { rootDir := rootDir, included := ["*.ts"] }⟩

def nestedFiles : List SourceFile :=
  [⟨"/p/src/a.ts", "src/a.ts", .typeScript⟩, ⟨"/p/src/src/a.ts", "src/src/a.ts", .typeScript⟩]

/-- The output of the second file is where a wider base expects that of the first. -/
def narrowBuild : BuildCall :=
  basedAt "src" (holding [("/p/src/a.ts", markedSource), ("/p/src/src/a.ts", "")])

def narrowCache : BuildCache :=
  Build.updatedCache (project.loaded narrowBuild) (project.outcomes narrowBuild nestedFiles)

/-- The same sources once more, with a wider base. -/
def wideBuild : BuildCall :=
  basedAt "."
    (project.concludedWith narrowBuild (project.loaded narrowBuild) nestedFiles).1

/-- What the build with the narrow base finds and reports. -/
theorem checked_narrowBuild : narrowBuild.before.WellFormed ∧
    narrowBuild.before.filesBelow (project.outPlace narrowBuild) = [] ∧
    project.listing narrowBuild = .ok nestedFiles ∧
    (nestedFiles.Pairwise fun first second => Scan.le first second = true) ∧
    (project.concludedWith narrowBuild (project.loaded narrowBuild) nestedFiles).2 ≠
      .error .file ∧
    narrowBuild.config.manifestPath? project.path = some manifestPath ∧
    project.cachePlace narrowBuild ≠ FileSystem.place project.directory manifestPath := by
  decide +kernel

/-- What the build with the wide base finds, and what it lists and reports with the cache of the
narrow one. -/
theorem checked_wideBuild : wideBuild.before.WellFormed ∧
    project.listing wideBuild = .ok nestedFiles ∧
    (project.concludedWith wideBuild narrowCache nestedFiles).2 =
      .ok ⟨2, 0, 1, 1, 0, 1, 0, some manifestPath⟩ ∧
    wideBuild.config.manifestPath? project.path = some manifestPath ∧
    (Build.repositories (Build.files (project.contextWith wideBuild narrowCache) wideBuild.before
      nestedFiles).2.1).map (fun repository => repository.classId.moduleName) = ["a"] ∧
    ∀ file ∈ nestedFiles, ∀ within,
      Path.below? file.path (wideBuild.config.rootPath project.path) = some within →
      "a" ≠ Path.moduleName within := by
  decide +kernel

theorem sources_narrowBuild : project.sources narrowBuild = .ok nestedFiles := by
  obtain ⟨_, _, isListing, sorted, _⟩ := checked_narrowBuild
  exact sources_of_sorted isListing sorted

theorem sources_wideBuild : project.sources wideBuild = .ok nestedFiles := by
  obtain ⟨_, _, _, sorted, _⟩ := checked_narrowBuild
  obtain ⟨_, isListing, _⟩ := checked_wideBuild
  exact sources_of_sorted isListing sorted

theorem before_wideBuild : wideBuild.before = (project.run narrowBuild).fs := by
  rw [(run_of_loaded sources_narrowBuild rfl).1, wideBuild, basedAt]

theorem history_wideBuild : project.History [wideBuild, narrowBuild] := by
  obtain ⟨wellFormed, empty, _⟩ := checked_narrowBuild
  refine .next (.first wellFormed fun location inside => ?_) checked_wideBuild.1 ⟨rfl, ?_⟩
  · exact FileSystem.content?_of_filesBelow_eq_nil empty inside
  · intro location _
    rw [before_wideBuild]

theorem loaded_wideBuild : project.loaded wideBuild = narrowCache := by
  obtain ⟨_, _, _, _, wrote, named, elsewhere⟩ := checked_narrowBuild
  rw [← (run_of_loaded sources_narrowBuild rfl).2] at wrote
  refine loaded_of_run sources_narrowBuild rfl wrote ?_ before_wideBuild rfl rfl
  intro manifest isManifest
  rw [named] at isManifest
  cases isManifest
  exact elsewhere

theorem result_wideBuild : (project.run wideBuild).result =
    .ok ⟨2, 0, 1, 1, 0, 1, 0, some manifestPath⟩ := by
  obtain ⟨_, _, result, _⟩ := checked_wideBuild
  rw [(run_of_loaded sources_wideBuild loaded_wideBuild).2, result]

theorem manifestPath_wideBuild :
    wideBuild.config.manifestPath? project.path = some manifestPath := by
  obtain ⟨_, _, _, named, _⟩ := checked_wideBuild
  exact named

end SourceQuote.Sample

namespace SourceQuote.Project

open Sample

theorem manifest_attributed_wideBuild :
    ∃ text manifest,
      (project.run wideBuild).fs.readText? project.directory manifestPath =
        some text ∧
      Manifest.parse manifestPath text = .ok manifest ∧
      ∀ repository ∈ manifest.repositories, ∃ file ∈ nestedFiles,
        ∃ origin ∈ [wideBuild, narrowBuild],
          project.Attributes origin file.relative repository.classId.moduleName := by
  obtain ⟨found, text, manifest, isFound, read, parsed, attributed⟩ :=
    manifest_attributed history_wideBuild result_wideBuild manifestPath_wideBuild
  rw [sources_wideBuild] at isFound
  obtain rfl := Except.ok.inj isFound
  refine ⟨text, manifest, read, parsed, fun repository member => ?_⟩
  obtain ⟨file, isFile, origin, _⟩ := attributed repository member
  exact ⟨file, isFile, origin⟩

/-- After the base has changed, a manifest names a module that belongs to no file under the new
base. -/
theorem manifest_misattributed :
    project.History [wideBuild, narrowBuild] ∧
    project.sources wideBuild = .ok nestedFiles ∧
    ∃ text manifest,
      (project.run wideBuild).fs.readText? project.directory manifestPath =
        some text ∧
      Manifest.parse manifestPath text = .ok manifest ∧
      ∃ repository ∈ manifest.repositories, ∀ file ∈ nestedFiles, ∀ within,
        Path.below? file.path (wideBuild.config.rootPath project.path) = some within →
        repository.classId.moduleName ≠ Path.moduleName within := by
  have read := (concludes_run sources_wideBuild).read?_manifest result_wideBuild
    manifestPath_wideBuild
  obtain ⟨_, _, _, _, cachedModules, elsewhere⟩ := checked_wideBuild
  have modules : (Build.repositories (project.outcomes wideBuild nestedFiles)).map
      (fun repository => repository.classId.moduleName) = ["a"] := by
    rw [outcomes, context, loaded_wideBuild]
    exact cachedModules
  obtain ⟨repository, member, isModule⟩ := List.mem_map.mp (modules ▸ List.mem_singleton_self "a")
  refine ⟨history_wideBuild, sources_wideBuild, _, _, FileSystem.readText?_eq_some read,
    Manifest.parse_render _ rfl, repository, ?_, ?_⟩
  · simpa [Manifest.ofRepositories] using member
  · rw [isModule]
    exact elsewhere

end SourceQuote.Project

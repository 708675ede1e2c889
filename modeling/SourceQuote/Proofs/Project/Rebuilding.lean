import SourceQuote.Proofs.FileSystem.Saving
import SourceQuote.Proofs.Project.Accounting
import SourceQuote.Proofs.Project.Incremental
import SourceQuote.Proofs.Scan.Stability

/-!
Contract: the same build once more.

Owns: that a build leaves the file system in order, what a build does whose files are all known to
the cache, and that a build right after one that succeeded finds nothing to do and changes
nothing.

The second build reads the cache that the first one stored. Each file has its entry there, with
the digest of the same bytes, and its output stands; so every outcome is the first one's with
another status. Status is not recorded, hence cache and manifest come out as the bytes that stand
there already.

Does not own: builds with changes in between.
-/

namespace SourceQuote

open SourceQuote.FileSystem (Keeps place)

/-! ## File systems stay in order -/

theorem Build.wellFormed_files {context : BuildContext} {fs : FileSystem}
    (wellFormed : fs.WellFormed) (here : fs.isDirectory context.directory = true)
    (sources : List SourceFile) :
    (files context fs sources).1.WellFormed ∧
      (files context fs sources).1.isDirectory context.directory = true := by
  refine @files_invariant context sources fs (fun _ => True)
    (fun fs => fs.WellFormed ∧ fs.isDirectory context.directory = true) ?_ (fun _ _ => trivial)
    ⟨wellFormed, here⟩
  rintro file _ before after outcome ⟨inOrder, still⟩ built _
  cases built with
  | produced =>
      exact ⟨inOrder.save still _ _, (FileSystem.keeps_save _ _ _ _).directories _ still⟩
  | _ => exact ⟨inOrder, still⟩

namespace Project

variable {project : Project} {call : BuildCall} {found : List SourceFile}

theorem wellFormed_stored (wellFormed : call.before.WellFormed)
    (here : call.before.isDirectory project.directory = true) (found : List SourceFile) :
    (project.stored call found).fs.WellFormed ∧
      (project.stored call found).fs.isDirectory project.directory = true := by
  have built : (project.built call found).WellFormed ∧
      (project.built call found).isDirectory project.directory = true :=
    Build.wellFormed_files wellFormed here found
  unfold stored Build.storing
  split
  · exact ⟨built.1.save built.2 _ _, (FileSystem.keeps_save _ _ _ _).directories _ built.2⟩
  · exact built

/-- A build leaves a well-formed file system. -/
theorem wellFormed_run (wellFormed : call.before.WellFormed)
    (here : call.before.isDirectory project.directory = true) :
    (project.run call).fs.WellFormed := by
  cases isFound : project.sources call with
  | error error =>
      rw [run_of_sources_error isFound]
      exact wellFormed
  | ok found =>
      obtain ⟨inOrder, still⟩ := wellFormed_stored wellFormed here found
      have concludes := concludes_run isFound
      revert concludes
      generalize (project.run call).fs = after
      generalize (project.run call).result = result
      intro concludes
      cases concludes with
      | published => exact inOrder.save still _ _
      | _ => exact inOrder

end Project

/-! ## Outcomes that are known -/

namespace FileOutcome

def repeated (outcome : FileOutcome) : FileOutcome :=
  { outcome with result := outcome.result.map fun built => (.unchanged, built.2) }

variable (outcome : FileOutcome)

theorem isFailed_repeated : outcome.repeated.isFailed = outcome.isFailed := by
  unfold isFailed repeated
  cases outcome.result <;> rfl

theorem repositories_repeated : outcome.repeated.repositories = outcome.repositories := by
  unfold repositories repeated
  cases outcome.result <;> rfl

theorem cached_repeated : outcome.repeated.cached = outcome.cached := by
  unfold cached repeated
  cases outcome.result <;> rfl

theorem hasStatus_repeated (status : FileStatus) :
    outcome.repeated.hasStatus status = (!outcome.isFailed && status = .unchanged) := by
  unfold hasStatus repeated isFailed
  cases outcome.result with
  | error error => rfl
  | ok built => cases status <;> rfl

end FileOutcome

namespace Build

variable {outcomes : List FileOutcome}

theorem repositories_map_repeated (outcomes : List FileOutcome) :
    repositories (outcomes.map FileOutcome.repeated) = repositories outcomes := by
  rw [repositories, List.flatMap_map, repositories]
  exact List.flatMap_congr fun outcome _ => outcome.repositories_repeated

theorem failures_map_repeated (outcomes : List FileOutcome) :
    failures (outcomes.map FileOutcome.repeated) = failures outcomes := by
  rw [failures, List.countP_map, failures]
  exact List.countP_congr fun outcome _ => by
    rw [Function.comp_apply, outcome.isFailed_repeated]

/-- The report on outcomes that repeat others. -/
theorem report_map_repeated (clear : failures outcomes = 0) (manifestPath : Option String) :
    report (outcomes.map FileOutcome.repeated) manifestPath =
      { report outcomes manifestPath with
        filesTransformed := 0
        filesCopied := 0
        filesUnchanged := (report outcomes manifestPath).filesSeen } := by
  have kept : ∀ outcome ∈ outcomes, outcome.isFailed = false := by
    rw [failures, List.countP_eq_zero] at clear
    exact fun outcome member => by simpa using clear outcome member
  have statuses : ∀ status,
      (outcomes.map FileOutcome.repeated).countP (fun outcome => outcome.hasStatus status) =
        if status = .unchanged then outcomes.length else 0 := by
    intro status
    rw [List.countP_map]
    split
    · next isUnchanged =>
        rw [List.countP_eq_length]
        intro outcome member
        simp [outcome.hasStatus_repeated, kept outcome member, isUnchanged]
    · next differs =>
        rw [List.countP_eq_zero]
        intro outcome member
        simp [outcome.hasStatus_repeated, differs]
  have failed := failures_map_repeated outcomes
  rw [failures, failures] at failed
  simp only [report, statuses, repositories_map_repeated, failed, List.length_map,
    if_true, reduceCtorEq, if_false]

/-- The cache learns nothing from outcomes that repeat those it has learnt from. -/
theorem updatedCache_map_repeated (cache : BuildCache)
    (distinct : (outcomes.map FileOutcome.relative).Nodup) :
    updatedCache (updatedCache cache outcomes) (outcomes.map FileOutcome.repeated) =
      updatedCache cache outcomes := by
  have relatives : (outcomes.map FileOutcome.repeated).map FileOutcome.relative =
      outcomes.map FileOutcome.relative := by
    rw [List.map_map]
    rfl
  have options := updatedCache_options (updatedCache cache outcomes)
    (outcomes.map FileOutcome.repeated)
  have files : (updatedCache (updatedCache cache outcomes)
      (outcomes.map FileOutcome.repeated)).files = (updatedCache cache outcomes).files := by
    -- Each file that was seen is entered as before; the others were dropped the first time.
    refine SortedMap.eq_of_get?_eq fun relative => ?_
    by_cases seen : relative ∈ outcomes.map FileOutcome.relative
    · obtain ⟨outcome, member, rfl⟩ := List.mem_map.mp seen
      have again := @get?_updatedCache_of_mem (outcomes.map FileOutcome.repeated)
        outcome.repeated (updatedCache cache outcomes) (relatives ▸ distinct)
        (List.mem_map_of_mem member)
      rw [get?_updatedCache_of_mem cache distinct member, ← outcome.cached_repeated]
      exact again
    · rw [get?_updatedCache_of_fresh _ (relatives ▸ seen), get?_updatedCache_of_fresh _ seen]
  generalize updatedCache (updatedCache cache outcomes) (outcomes.map FileOutcome.repeated) =
    later at options files
  obtain ⟨version, fingerprint, entries⟩ := later
  dsimp only at options files
  rw [options.1, options.2, files]

/-- A build whose files are all known changes nothing. -/
theorem files_of_known {context : BuildContext} {fs : FileSystem} {sources : List SourceFile}
    (known : List.Forall₂ (fun file outcome =>
      (file.build context fs).1 = fs ∧ (file.build context fs).2.1 = outcome) sources outcomes) :
    (files context fs sources).1 = fs ∧ (files context fs sources).2.1 = outcomes := by
  induction known with
  | nil => exact ⟨rfl, rfl⟩
  | @cons file outcome rest others head _ inductionHypothesis =>
      obtain ⟨untouched, isOutcome⟩ := head
      obtain ⟨restUntouched, restOutcomes⟩ := inductionHypothesis
      unfold files
      dsimp only
      rw [untouched, isOutcome, restUntouched, restOutcomes]
      exact ⟨rfl, rfl⟩

/-- Each outcome holds the digest of what its file held when the build began. -/
theorem files_digest {context : BuildContext} {fs : FileSystem} {sources : List SourceFile}
    (separates : context.Separates fs sources) :
    List.Forall₂ (fun file outcome => ∀ content,
        fs.read? context.directory file.path = some content →
        outcome.contentHash = Sha256.hexDigest content) sources (files context fs sources).2.1 := by
  refine @files_results context sources fs (fun _ => True)
    (Keeps (context.outputPlaces sources) fs) (fun file outcome _ => ∀ content,
      fs.read? context.directory file.path = some content →
      outcome.contentHash = Sha256.hexDigest content) ?_ ?_ (fun _ _ => trivial) (.refl _ _)
  · intro file member before after outcome kept built _
    refine ⟨kept.trans (built.keeps member), fun content read => ?_⟩
    have same := SourceFile.Builds.read?_eq separates member kept
    rw [← same] at read
    cases built with
    | unreadable unread =>
        rw [unread] at read
        cases read
    | outside own _ | unchanged own _ _ | refused own _ _ | produced own _ _ =>
        rw [own] at read
        cases read
        rfl
  · exact fun _ _ _ _ _ _ _ _ _ _ _ holds => holds

/-- A build that finds cache and manifest as it would write them changes nothing. -/
theorem Concludes.of_standing {config : Config} {directory : Location} {project : String}
    {fs after : FileSystem} {result : Except Error BuildReport}
    (concludes : Concludes config directory project outcomes ⟨fs, true⟩ after result)
    (clear : failures outcomes = 0)
    (standing : ∀ path, config.manifestPath? project = some path →
      fs.read? directory path = some (manifestBytes outcomes)) :
    after = fs ∧ result = .ok (report outcomes (config.manifestPath? project)) := by
  cases concludes with
  | unstored failed => cases failed
  | failed _ faulty => exact absurd clear faulty
  | silent _ _ unnamed => exact ⟨rfl, by rw [unnamed]⟩
  | published _ _ named =>
      rw [FileSystem.save_of_read? (standing _ named), named]
      exact ⟨rfl, rfl⟩

end Build

theorem SourceFile.build_of_cached {context : BuildContext} {fs : FileSystem}
    {file : SourceFile} {content : ByteArray} {within : String} {entry : CachedFile}
    (read : fs.read? context.directory file.path = some content)
    (below : Path.below? file.path context.root = some within)
    (cached : file.cached? context fs (Path.join context.out within)
      (Sha256.hexDigest content) = some entry) :
    (file.build context fs).1 = fs ∧
      (file.build context fs).2.1 =
        ⟨file.relative, Sha256.hexDigest content, .ok (.unchanged, entry.repositories)⟩ := by
  simp only [build, read, below, cached, and_self]

/-- What is left of a file that did not fail: it was read, and its output stands. -/
theorem SourceFile.Settles.standing {context : BuildContext} {before after : FileSystem}
    {file : SourceFile} {result : Except Error (FileStatus × List Repository)}
    (settles : file.Settles context before after result) {status : FileStatus}
    {repositories : List Repository} (succeeded : result = .ok (status, repositories)) :
    ∃ content within bytes, before.read? context.directory file.path = some content ∧
      Path.below? file.path context.root = some within ∧
      after.read? context.directory (Path.join context.out within) = some bytes := by
  cases settles with
  | failed => cases succeeded
  | unchanged remembered isOutput _ stands =>
      obtain ⟨content, read, _⟩ := Option.bind_eq_some_iff.mp remembered
      obtain ⟨within, below, rfl⟩ := Option.map_eq_some_iff.mp isOutput
      exact ⟨content, within, _, read, below, stands⟩
  | built passed isOutput stands =>
      obtain ⟨content, within, read, below, _⟩ := expected_eq_ok passed
      rw [output?_eq below, Option.some_inj] at isOutput
      exact ⟨content, within, _, read, below, isOutput ▸ stands⟩

/-! ## The same build once more -/

namespace Project

/-- The same build again, with nothing changed since it ended. -/
def rerun (project : Project) (call : BuildCall) : BuildCall :=
  { call with before := (project.run call).fs }

/-- What is asked of a build that should have nothing to do when it is run again: it uses the
cache, no two of its files have one relative path, nothing that it writes is or becomes a source,
and its manifest is neither an output nor the cache nor an ignore file. -/
structure Rebuildable (project : Project) (call : BuildCall) : Prop where
  wellFormed : call.before.WellFormed
  here : call.before.isDirectory project.directory = true
  incremental : call.config.incremental = true
  distinct : ((project.listed call).map SourceFile.relative).Nodup
  inputs : ∀ location ∈ project.inputPlaces call, location ∉ project.writtenPlaces call
  laterInputs : ∀ location ∈ project.inputPlaces (project.rerun call),
    location ∉ project.writtenPlaces call
  manifest : ∀ location ∈ project.manifestPlace? call,
    location ∉ project.outputPlaces call ∧ location ≠ project.cachePlace call ∧
      ∀ name ∈ location.getLast?, name ∉ IgnoreFiles.names

/-- Whether a build that reported something does nothing when it is run again: it finds as many
files, all unchanged, quotes the same classes and methods, and leaves all files as they are. -/
structure AtRest (project : Project) (call : BuildCall) (report : BuildReport) : Prop where
  result : (project.run (project.rerun call)).result = .ok { report with
    filesTransformed := 0
    filesCopied := 0
    filesUnchanged := report.filesSeen }
  fs : (project.run (project.rerun call)).fs = (project.run call).fs

variable {project : Project} {call : BuildCall} {found : List SourceFile} {report : BuildReport}

theorem rerun_eq {later : BuildCall} (sameBefore : later.before = (project.run call).fs)
    (sameEnvironment : later.environment = call.environment)
    (sameConfig : later.config = call.config) : project.rerun call = later := by
  rw [rerun, ← sameBefore, ← sameEnvironment, ← sameConfig]

theorem filesSeen_of_succeeded (isFound : project.sources call = .ok found)
    (succeeded : (project.run call).result = .ok report) : report.filesSeen = found.length := by
  rw [(report_of_succeeded isFound succeeded).2]
  exact Build.length_files _ _ _

theorem exists_result (succeeded : (project.run call).result = .ok report)
    (isFound : project.sources call = .ok found) {outcome : FileOutcome}
    (member : outcome ∈ project.outcomes call found) :
    ∃ status repositories, outcome.result = .ok (status, repositories) := by
  have clear := (report_of_succeeded isFound succeeded).1
  rw [Build.failures, List.countP_eq_zero] at clear
  have kept := clear outcome member
  unfold FileOutcome.isFailed at kept
  cases result : outcome.result with
  | error error => simp [result] at kept
  | ok built => exact ⟨built.1, built.2, rfl⟩

namespace Rebuildable

variable (rebuildable : project.Rebuildable call)
  (succeeded : (project.run call).result = .ok report)
include rebuildable succeeded

theorem wellPlaced : project.WellPlaced call where
  wellFormed := rebuildable.wellFormed
  written := writesSucceed_of_succeeded succeeded
  distinct := rebuildable.distinct
  inputs location isInput isOutput :=
    rebuildable.inputs location isInput (List.mem_append_left _ isOutput)
  manifest location isManifest := (rebuildable.manifest location isManifest).1

omit succeeded in
theorem manifest_ne_cachePlace :
    ∀ location ∈ project.manifestPlace? call, location ≠ project.cachePlace call :=
  fun location isManifest => (rebuildable.manifest location isManifest).2.1

variable (isFound : project.sources call = .ok found)
include isFound

/-- What is known of each file after the first build. -/
theorem files_standing :
    List.Forall₂ (fun file outcome => (outcome.relative = file.relative ∧
        file.Settles (project.context call) call.before (project.run call).fs outcome.result) ∧
      ∀ content, call.before.read? project.directory file.path = some content →
        outcome.contentHash = Sha256.hexDigest content)
      found (project.outcomes call found) := by
  have placed := rebuildable.wellPlaced succeeded
  have digests := Build.files_digest
    (separates_of_apart placed.wellFormed isFound placed.inputs)
  exact List.Forall₂.mp (fun _ _ settled digest => ⟨settled, digest⟩)
    (placed.accounts_files isFound) digests

theorem read?_cacheFile :
    (project.run call).fs.read? project.directory (project.cachePath call) =
      some (Build.cacheBytes (project.loaded call) (project.outcomes call found)) :=
  read?_cache isFound rebuildable.incremental (writesSucceed_of_succeeded succeeded).1
    (cachePlace_ne_manifest rebuildable.manifest_ne_cachePlace)

/-- No output takes the place of the output directory, since the cache is stored in there. -/
theorem output_ne_out {output : String} {bytes : ByteArray} (named : project.path ≠ "")
    (stands : (project.run call).fs.read? project.directory output = some bytes) :
    place project.directory output ≠
      place project.directory (call.config.outPath project.path) := by
  have outNamed : call.config.outPath project.path ≠ "" := Path.join_ne_empty named
  obtain ⟨isDirectory, _⟩ := FileSystem.isDirectory_of_read?_join (by decide) outNamed
    (rebuildable.read?_cacheFile succeeded isFound)
  intro same
  have holds := FileSystem.content?_of_read? stands
  rw [same, FileSystem.content?_eq_some_iff] at holds
  rw [FileSystem.isDirectory_eq_true_iff, holds] at isDirectory
  cases isDirectory

/-- Nothing that is written is an ignore file. -/
theorem not_ignoreFile : ∀ location ∈ project.writtenPlaces call,
    ∀ name ∈ location.getLast?, name ∉ IgnoreFiles.names := by
  intro location isWritten name isLast isName
  rcases mem_writtenPlaces.mp isWritten with isOutput | rfl | isManifest
  · obtain ⟨file, member, output, isPath, rfl⟩ := (mem_outputPlaces isFound).mp isOutput
    obtain ⟨names, stands⟩ := exists_stands rebuildable.wellFormed isFound member
    obtain ⟨outcome, isOutcome, ⟨⟨_, settles⟩, _⟩⟩ :=
      exists_left_of_mem (rebuildable.files_standing succeeded isFound).flip member
    obtain ⟨status, repositories, result⟩ := exists_result succeeded isFound isOutcome
    obtain ⟨content, within, bytes, read, below, standing⟩ := settles.standing result
    rw [SourceFile.output?_eq below, Option.some_inj] at isPath
    subst isPath
    -- An output ends in the name of its source, or it would be the output directory itself; and
    -- no source is named like an ignore file.
    have differs := rebuildable.output_ne_out succeeded isFound stands.project_ne_empty standing
    have rooted : (project.context call).root ≠ "" := Path.join_ne_empty stands.project_ne_empty
    rw [stands.path_eq] at below
    have sameLast := (FileSystem.getLast?_place_output project.directory
      (call.config.outPath project.path) stands.project_ne_empty rooted stands.nonempty
      stands.proper below).resolve_left differs
    have foreign : ∀ name ∈ IgnoreFiles.names, Dialect.IsForeign name := by decide
    exact stands.getLast?_names_ne (foreign name isName) (sameLast.symm.trans isLast)
  · rw [cachePlace_eq, List.getLast?_concat] at isLast
    cases isLast
    revert isName
    decide
  · exact (rebuildable.manifest location isManifest).2.2 name isLast isName

/-- The second build finds the files of the first. -/
theorem sources_rerun (unmoved : Scan.Unmoved call.before (project.run call).fs project.directory
      call.environment project.path) :
    project.sources (project.rerun call) = .ok found := by
  obtain ⟨valid, scanned⟩ := sources_eq_ok isFound
  have stillValid : (project.rerun call).config.validate = .ok () := valid
  rw [sources_of_valid stillValid, ← scanned]
  refine Scan.sourceFiles_of_keeps rebuildable.wellFormed
    (wellFormed_run rebuildable.wellFormed rebuildable.here) (keeps_writtenPlaces project call)
    unmoved (rebuildable.not_ignoreFile succeeded isFound) ?_ ?_
  · intro files isFiles file member
    obtain rfl := Except.ok.inj (scanned.symm.trans isFiles)
    refine rebuildable.inputs _ ?_
    rw [inputPlaces, listed_eq isFound]
    exact List.mem_map_of_mem member
  · intro files isFiles file member
    have isLater : project.sources (project.rerun call) = .ok files :=
      (sources_of_valid stillValid).trans isFiles
    refine rebuildable.laterInputs _ ?_
    rw [inputPlaces, listed_eq isLater]
    exact List.mem_map_of_mem member

theorem loaded_rerun : project.loaded (project.rerun call) =
    Build.updatedCache (project.loaded call) (project.outcomes call found) :=
  loaded_of_run isFound rebuildable.incremental (writesSucceed_of_succeeded succeeded).1
    (cachePlace_ne_manifest rebuildable.manifest_ne_cachePlace) rfl rfl rfl

theorem distinct_outcomes : ((project.outcomes call found).map FileOutcome.relative).Nodup := by
  rw [(rebuildable.wellPlaced succeeded).relatives_eq isFound, ← listed_eq isFound]
  exact rebuildable.distinct

/-- The second build knows each file. -/
theorem files_known :
    List.Forall₂ (fun file outcome =>
        (file.build (project.context (project.rerun call)) (project.run call).fs).1 =
          (project.run call).fs ∧
        (file.build (project.context (project.rerun call)) (project.run call).fs).2.1 = outcome)
      found ((project.outcomes call found).map FileOutcome.repeated) := by
  rw [List.forall₂_map_right_iff]
  refine (forall₂_members (rebuildable.files_standing succeeded isFound)).imp ?_
  rintro file outcome ⟨⟨member, isOutcome⟩, ⟨named, settles⟩, digest⟩
  obtain ⟨status, repositories, result⟩ := exists_result succeeded isFound isOutcome
  obtain ⟨content, within, bytes, read, below, outputStands⟩ := settles.standing result
  have sameHash := digest content read
  have stillBelow : Path.below? file.path (project.context (project.rerun call)).root =
      some within := below
  have readAgain : (project.run call).fs.read? project.directory file.path = some content := by
    obtain ⟨names, stands⟩ := exists_stands rebuildable.wellFormed isFound member
    rw [stands.read?_eq rebuildable.wellFormed (keeps_writtenPlaces project call)]
    · exact read
    · refine rebuildable.inputs _ ?_
      rw [inputPlaces, listed_eq isFound]
      exact List.mem_map_of_mem member
  have known : (project.loaded (project.rerun call)).files.get? file.relative =
      some ⟨outcome.contentHash, repositories⟩ := by
    rw [rebuildable.loaded_rerun succeeded isFound, ← named, Build.get?_updatedCache_of_mem _
      (rebuildable.distinct_outcomes succeeded isFound) isOutcome, FileOutcome.cached, result]
  have cached : file.cached? (project.context (project.rerun call)) (project.run call).fs
      (Path.join (project.context (project.rerun call)).out within) (Sha256.hexDigest content) =
      some ⟨outcome.contentHash, repositories⟩ := by
    have incremental : (project.rerun call).config.incremental = true := rebuildable.incremental
    rw [SourceFile.cached?, context_cache, if_pos incremental, Option.bind_some,
      BuildCache.fresh?, known, Option.filter_eq_some_iff, Option.filter_eq_some_iff]
    exact ⟨⟨rfl, decide_eq_true sameHash⟩, Option.isSome_iff_exists.mpr ⟨bytes, outputStands⟩⟩
  obtain ⟨untouched, isBuilt⟩ := SourceFile.build_of_cached readAgain stillBelow cached
  refine ⟨untouched, isBuilt.trans ?_⟩
  rw [FileOutcome.repeated, result, named, sameHash]
  rfl

end Rebuildable

/-- A build that succeeded, run again at once, finds every file unchanged and changes nothing, if
its listing is decided by what was there before. -/
theorem atRest_of_succeeded (rebuildable : project.Rebuildable call)
    (unmoved : Scan.Unmoved call.before (project.run call).fs project.directory call.environment
      project.path)
    (succeeded : (project.run call).result = .ok report) : project.AtRest call report := by
  cases isFound : project.sources call with
  | error error =>
      rw [run_of_sources_error isFound] at succeeded
      cases succeeded
  | ok found =>
      obtain ⟨clear, rfl⟩ := report_of_succeeded isFound succeeded
      obtain ⟨sameFiles, outcomes⟩ :=
        Build.files_of_known (rebuildable.files_known succeeded isFound)
      have isFoundAgain := rebuildable.sources_rerun succeeded isFound unmoved
      have outcomesAgain : project.outcomes (project.rerun call) found =
          (project.outcomes call found).map FileOutcome.repeated := outcomes
      have builtAgain : project.built (project.rerun call) found = (project.run call).fs :=
        sameFiles
      -- Both saves write what stands already: the cache here, the manifest below.
      have stored : project.stored (project.rerun call) found = ⟨(project.run call).fs, true⟩ := by
        rw [Project.stored, Build.storing, outcomesAgain, builtAgain,
          rebuildable.loaded_rerun succeeded isFound]
        have incremental : (project.rerun call).config.incremental = true := rebuildable.incremental
        rw [if_pos incremental, Build.cacheBytes, Build.updatedCache_map_repeated _
          (rebuildable.distinct_outcomes succeeded isFound)]
        exact FileSystem.save_of_read? (rebuildable.read?_cacheFile succeeded isFound)
      have concludes := concludes_run isFoundAgain
      rw [outcomesAgain, stored] at concludes
      have published : ∀ path, call.config.manifestPath? project.path = some path →
          (project.run call).fs.read? project.directory path = some (Build.manifestBytes
            ((project.outcomes call found).map FileOutcome.repeated)) := by
        intro path named
        rw [Build.manifestBytes, Build.repositories_map_repeated]
        exact (concludes_run isFound).read?_manifest succeeded named
      obtain ⟨sameFs, result⟩ := concludes.of_standing
        ((Build.failures_map_repeated _).trans clear) published
      exact ⟨result.trans (congrArg Except.ok (Build.report_map_repeated clear _)), sameFs⟩

end Project

/-! ## Two builds that are run again -/

namespace Sample

open SourceQuote.Project

/-- What is checked of a build that finds some files, and others when it is run again. -/
def Placed (call : BuildCall) (found foundAgain : List SourceFile) : Prop :=
  call.before.WellFormed ∧ call.config.incremental = true ∧
  (found.map SourceFile.relative).Nodup ∧
  (∀ file ∈ found ++ foundAgain, place [] file.path ≠ project.cachePlace call ∧
    project.manifestPlace? call ≠ some (place [] file.path) ∧
    ∀ other ∈ found, ∀ output ∈ other.output? (project.context call),
      place [] output ≠ place [] file.path) ∧
  ∀ location ∈ project.manifestPlace? call, location ≠ project.cachePlace call ∧
    (∀ name ∈ location.getLast?, name ∉ IgnoreFiles.names) ∧
    ∀ other ∈ found, ∀ output ∈ other.output? (project.context call), place [] output ≠ location

instance (call : BuildCall) (found foundAgain : List SourceFile) :
    Decidable (Placed call found foundAgain) :=
  inferInstanceAs (Decidable (_ ∧ _))

theorem rebuildable_of_placed {call : BuildCall} {found foundAgain : List SourceFile}
    (isFound : project.sources call = .ok found)
    (isFoundAgain : project.sources (project.rerun call) = .ok foundAgain)
    (placed : Placed call found foundAgain) : project.Rebuildable call := by
  obtain ⟨wellFormed, incremental, distinct, apart, manifest⟩ := placed
  have outputs : ∀ {location}, location ∈ project.outputPlaces call → ∃ other ∈ found,
      ∃ output ∈ other.output? (project.context call), place [] output = location := by
    intro location isOutput
    rw [outputPlaces, listed_eq isFound] at isOutput
    obtain ⟨other, isOther, isPlace⟩ := List.mem_filterMap.mp isOutput
    obtain ⟨output, isPath, same⟩ := Option.map_eq_some_iff.mp isPlace
    exact ⟨other, isOther, output, isPath, same⟩
  have unwritten : ∀ file ∈ found ++ foundAgain,
      place project.directory file.path ∉ project.writtenPlaces call := by
    intro file member isWritten
    obtain ⟨noCache, noManifest, noOutput⟩ := apart file member
    rcases mem_writtenPlaces.mp isWritten with isOutput | isCache | isManifest
    · obtain ⟨other, isOther, output, isPath, same⟩ := outputs isOutput
      exact noOutput other isOther output isPath same
    · exact noCache isCache
    · exact noManifest isManifest
  refine ⟨wellFormed, rfl, incremental, by rwa [listed_eq isFound], ?_, ?_, ?_⟩
  · rw [inputPlaces, listed_eq isFound, List.forall_mem_map]
    exact fun file member => unwritten file (List.mem_append_left _ member)
  · rw [inputPlaces, listed_eq isFoundAgain, List.forall_mem_map]
    exact fun file member => unwritten file (List.mem_append_right _ member)
  · intro location isManifest
    obtain ⟨noCache, noIgnore, noOutput⟩ := manifest location isManifest
    refine ⟨fun isOutput => ?_, noCache, noIgnore⟩
    obtain ⟨other, isOther, output, isPath, same⟩ := outputs isOutput
    exact noOutput other isOther output isPath same

theorem rerun_eq_onceMore {call : BuildCall} {found : List SourceFile}
    (isFound : project.sources call = .ok found) : project.rerun call = onceMore call found :=
  rerun_eq (before_onceMore isFound) rfl rfl

/-- What the scans of the first and of the second build read besides their files. -/
theorem checked_rebuilt :
    Placed loneBuild [loneFile] [loneFile] ∧
    repeatedLone.before.existing? project.directory project.path =
      loneBuild.before.existing? project.directory project.path ∧
    (UserIgnore.rules repeatedLone.before project.directory []).isEmpty = true ∧
    (UserIgnore.rules loneBuild.before project.directory []).isEmpty = true ∧
    (IgnoreFiles.exclusions repeatedLone.before project.directory).isEmpty = true ∧
    (IgnoreFiles.exclusions loneBuild.before project.directory).isEmpty = true := by
  decide +kernel

def deeperFile : SourceFile := ⟨"/p/sub/b.ts", "sub/b.ts", .typeScript⟩

/-- A build in a linked repository. The link leads through the output directory, so the list of
exclusions is found only once that directory exists. -/
def linkedBuild : BuildCall :=
  ⟨holding [("/p/a.ts", ""), ("/p/sub/b.ts", ""), ("/p/.git", "gitdir: /p/dist/../wt\n"),
      ("/p/wt/commondir", ".\n"), ("/p/wt/info/exclude", "sub\n")], [],
    { included := ["*.ts"] }⟩

def repeatedLinked : BuildCall :=
  { linkedBuild with
    before := (project.concludedWith linkedBuild (project.loaded linkedBuild)
      [loneFile, deeperFile]).1 }

theorem checked_linked :
    project.listing linkedBuild = .ok [loneFile, deeperFile] ∧
    Scan.le loneFile deeperFile = true ∧
    (project.concludedWith linkedBuild (project.loaded linkedBuild) [loneFile, deeperFile]).2 =
      .ok ⟨2, 0, 2, 0, 0, 0, 0, some manifestPath⟩ ∧
    project.sources repeatedLinked = .ok [loneFile] ∧
    Placed linkedBuild [loneFile, deeperFile] [loneFile] := by
  decide +kernel

end Sample

namespace Project

open Sample

theorem atRest_lone :
    project.Rebuildable loneBuild ∧
    project.AtRest loneBuild ⟨1, 1, 0, 0, 0, 1, 0, some manifestPath⟩ := by
  obtain ⟨⟨_, _, _, _, isFound, result, _⟩, ⟨_, _, isFoundAgain, _⟩, _⟩ := repeats_lone
  obtain ⟨placed, sameProject, rulesAgain, rules, exclusionsAgain, exclusions⟩ := checked_rebuilt
  have rebuildable := rebuildable_of_placed isFound
    (by rw [rerun_eq_onceMore isFound]; exact isFoundAgain) placed
  refine ⟨rebuildable, atRest_of_succeeded rebuildable ?_ result⟩
  rw [← before_onceMore isFound]
  exact ⟨sameProject, (List.isEmpty_iff.mp rulesAgain).trans (List.isEmpty_iff.mp rules).symm,
    (List.isEmpty_iff.mp exclusionsAgain).trans (List.isEmpty_iff.mp exclusions).symm⟩

/-- A build that makes its own output directory finds fewer files when it is run again. -/
theorem not_atRest_linked :
    project.Rebuildable linkedBuild ∧ ∃ report,
      (project.run linkedBuild).result = .ok report ∧ ¬ project.AtRest linkedBuild report := by
  obtain ⟨isListing, sorted, result, isFoundAgain, placed⟩ := checked_linked
  have isFound : project.sources linkedBuild = .ok [loneFile, deeperFile] :=
    sources_of_sorted isListing (by simp [sorted])
  have rerun_linked : project.rerun linkedBuild = repeatedLinked := rerun_eq_onceMore isFound
  refine ⟨rebuildable_of_placed isFound (by rw [rerun_linked]; exact isFoundAgain) placed, _,
    (run_of_loaded isFound rfl).2.trans result, fun atRest => ?_⟩
  have again := atRest.result
  rw [rerun_linked] at again
  have seen : 2 = 1 := filesSeen_of_succeeded isFoundAgain again
  cases seen

end Project

end SourceQuote

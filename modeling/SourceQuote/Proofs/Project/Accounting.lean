import SourceQuote.Proofs.Project.Footprint

/-!
Contract: how a build accounts for its files.

Owns: why a file fails; what has become of each file and of its output when a build is over; what
the cache after a build knows; and that a build with failing files leaves the manifest alone.

## Files fail alone

A file that fails writes nothing, and each file has an output of its own. So the files are
followed one at a time: what was true of a file's input and output before the first file is still
true when its turn comes, and what its turn made of its output outlives the others.
-/

namespace SourceQuote

open SourceQuote.FileSystem (Keeps place)

/-! ## One file -/

namespace SourceFile

/-- Why a file fails: it cannot be read, lies outside of the root, is no text, has no faultless
tree, or holds a marked class that cannot be quoted. -/
inductive Fails (context : BuildContext) (fs : FileSystem) (file : SourceFile) : Error → Prop
  | unreadable : fs.read? context.directory file.path = none → Fails context fs file .file
  | outside {content : ByteArray} :
      fs.read? context.directory file.path = some content →
      Path.below? file.path context.root = none →
      Fails context fs file (.build (.outsideRoot file.relative))
  | notText {content : ByteArray} {within : String} {error : Error} :
      fs.read? context.directory file.path = some content →
      Path.below? file.path context.root = some within →
      file.text content = .error error → Fails context fs file error
  | unparsed {content : ByteArray} {within source : String} {error : Error} :
      fs.read? context.directory file.path = some content →
      Path.below? file.path context.root = some within →
      file.text content = .ok source →
      SourceUnit.parse context.parser (Path.forwardSlashes within) source file.dialect =
        .error error → Fails context fs file error
  | unquoted {content : ByteArray} {within : String} {unit : SourceUnit} {error : Error} :
      fs.read? context.directory file.path = some content →
      Path.below? file.path context.root = some within →
      file.unit context within content = .ok unit →
      unit.transform context.options = .error error → Fails context fs file error

/-- What has become of a file between two states of the file system, by the result of building
it: the output of a file that failed is untouched, that of a file the cache knows is still what
it was, and any other output is what the pass gives. -/
inductive Settles (context : BuildContext) (before after : FileSystem) (file : SourceFile) :
    Except Error (FileStatus × List Repository) → Prop
  | failed {error : Error} (fails : file.Fails context before error)
      (untouched : ∀ output, file.output? context = some output →
        after.content? (place context.directory output) =
          before.content? (place context.directory output)) :
      Settles context before after file (.error error)
  | unchanged {entry : CachedFile} {output : String} {bytes : ByteArray}
      (remembered : file.remembered? context before = some entry)
      (isOutput : file.output? context = some output)
      (stood : before.content? (place context.directory output) = some bytes)
      (stands : after.read? context.directory output = some bytes) :
      Settles context before after file (.ok (.unchanged, entry.repositories))
  | built {transformed : Transformed} {output : String}
      (passed : file.expected context before = .ok transformed)
      (isOutput : file.output? context = some output)
      (stands : after.read? context.directory output =
        some transformed.source.toByteArray) :
      Settles context before after file (.ok (statusOf transformed, transformed.repositories))

variable {context : BuildContext} {fs before between after : FileSystem} {file : SourceFile}

theorem unit_of_text {content : ByteArray} {within source : String}
    (decoded : file.text content = .ok source) :
    file.unit context within content =
      SourceUnit.parse context.parser (Path.forwardSlashes within) source file.dialect := by
  rw [unit, decoded]
  rfl

theorem transformed_of_unit {content : ByteArray} {within : String} {unit : SourceUnit}
    (isUnit : file.unit context within content = .ok unit) :
    file.transformed context within content = unit.transform context.options := by
  rw [transformed, isUnit]
  rfl

theorem transformed_of_refused {content : ByteArray} {within : String} {error : Error}
    (refused : file.unit context within content = .error error) :
    file.transformed context within content = .error error := by
  rw [transformed, refused]
  rfl

theorem unit_of_notText {content : ByteArray} {within : String} {error : Error}
    (undecoded : file.text content = .error error) :
    file.unit context within content = .error error := by
  rw [unit, undecoded]
  rfl

theorem fails_of_transformed {content : ByteArray} {within : String} {error : Error}
    (read : fs.read? context.directory file.path = some content)
    (below : Path.below? file.path context.root = some within)
    (refused : file.transformed context within content = .error error) :
    file.Fails context fs error := by
  cases isUnit : file.unit context within content with
  | ok unit =>
      rw [transformed_of_unit isUnit] at refused
      exact .unquoted read below isUnit refused
  | error fault =>
      rw [transformed_of_refused isUnit] at refused
      cases refused
      cases decoded : file.text content with
      | error other =>
          rw [unit_of_notText decoded] at isUnit
          cases isUnit
          exact .notText read below decoded
      | ok source =>
          rw [unit_of_text decoded] at isUnit
          exact .unparsed read below decoded isUnit

theorem fails_of_expected {error : Error}
    (refused : file.expected context fs = .error error) : file.Fails context fs error := by
  unfold expected at refused
  split at refused
  · next unread =>
      cases refused
      exact .unreadable unread
  · next content read =>
      split at refused
      · next outside =>
          cases refused
          exact .outside read outside
      · next within below => exact fails_of_transformed read below refused

theorem expected_of_fails {error : Error} (fails : file.Fails context fs error) :
    file.expected context fs = .error error := by
  cases fails with
  | unreadable unread => simp only [expected, unread]
  | outside read outside => simp only [expected, read, outside]
  | notText read below undecoded =>
      rw [expected_eq read below, transformed_of_refused (unit_of_notText undecoded)]
  | unparsed read below decoded refused =>
      rw [expected_eq read below, transformed_of_refused ((unit_of_text decoded).trans refused)]
  | unquoted read below isUnit refused =>
      rw [expected_eq read below, transformed_of_unit isUnit, refused]

theorem Fails.congr {error : Error} (fails : file.Fails context between error)
    (same : between.read? context.directory file.path =
      before.read? context.directory file.path) : file.Fails context before error := by
  apply fails_of_expected
  rw [← expected_congr same]
  exact expected_of_fails fails

theorem settles_of_builds {outcome : FileOutcome}
    (built : Builds context before file after outcome) (written : ¬ outcome.IsUnwritten) :
    outcome.relative = file.relative ∧ file.Settles context before after outcome.result := by
  cases built with
  | unreadable unread => exact ⟨rfl, .failed (.unreadable unread) fun _ _ => rfl⟩
  | outside read outside => exact ⟨rfl, .failed (.outside read outside) fun _ _ => rfl⟩
  | unchanged read below cached =>
      obtain ⟨remembered, bytes, stands⟩ := remembered?_of_cached? read cached
      exact ⟨rfl, .unchanged remembered (output?_eq below)
        (FileSystem.content?_of_read? stands) stands⟩
  | refused read below failed =>
      exact ⟨rfl, .failed (fails_of_transformed read below failed) fun _ _ => rfl⟩
  | produced read below passed =>
      have succeeded := FileOutcome.succeeded_of_written written
      refine ⟨rfl, ?_⟩
      rw [if_pos succeeded]
      exact .built ((expected_eq read below).trans passed) (output?_eq below)
        (FileSystem.read?_save succeeded)

namespace Settles

variable {result : Except Error (FileStatus × List Repository)}

/-- What is written elsewhere later does not matter. -/
theorem later {touched : Set Location} (settles : file.Settles context before between result)
    (kept : Keeps touched between after)
    (outside : ∀ output, file.output? context = some output →
      place context.directory output ∉ touched) :
    file.Settles context before after result := by
  cases settles with
  | failed fails untouched =>
      refine .failed fails fun output isOutput => ?_
      rw [kept.contents _ (outside output isOutput), untouched output isOutput]
  | unchanged remembered isOutput stood stands =>
      exact .unchanged remembered isOutput stood (kept.read? (outside _ isOutput) stands)
  | built passed isOutput stands =>
      exact .built passed isOutput (kept.read? (outside _ isOutput) stands)

/-- What was written elsewhere before does not matter. -/
theorem earlier (settles : file.Settles context between after result)
    (sameInput : between.read? context.directory file.path =
      before.read? context.directory file.path)
    (sameOutput : ∀ output, file.output? context = some output →
      between.content? (place context.directory output) =
        before.content? (place context.directory output)) :
    file.Settles context before after result := by
  cases settles with
  | failed fails untouched =>
      refine .failed (fails.congr sameInput) fun output isOutput => ?_
      rw [untouched output isOutput, sameOutput output isOutput]
  | unchanged remembered isOutput stood stands =>
      refine .unchanged ?_ isOutput ?_ stands
      · rwa [remembered?, ← sameInput, ← remembered?]
      · rwa [← sameOutput _ isOutput]
  | built passed isOutput stands =>
      refine .built ?_ isOutput stands
      rwa [← expected_congr sameInput]

end Settles

end SourceFile

/-! ## The files of a build -/

theorem BuildContext.outputPlaces_subset (context : BuildContext) (file : SourceFile)
    (rest : List SourceFile) :
    context.outputPlaces rest ⊆ context.outputPlaces (file :: rest) := by
  rintro location ⟨other, member, output, isOutput, same⟩
  exact ⟨other, List.mem_cons_of_mem _ member, output, isOutput, same⟩

theorem BuildContext.Separates.rest {context : BuildContext} {before after : FileSystem}
    {file : SourceFile} {rest : List SourceFile} {touched : Set Location}
    (separates : context.Separates before (file :: rest)) (kept : Keeps touched before after) :
    context.Separates after rest where
  reaches other member :=
    (separates.reaches other (List.mem_cons_of_mem _ member)).mono kept.directories
  apart other member inside :=
    separates.apart other (List.mem_cons_of_mem _ member)
      (context.outputPlaces_subset file rest inside)
  distinct other member another isAnother :=
    separates.distinct other (List.mem_cons_of_mem _ member) another
      (List.mem_cons_of_mem _ isAnother)

/-- The output of a file is none of those of other files. -/
theorem BuildContext.Separates.output_outside {context : BuildContext} {fs : FileSystem}
    {sources others : List SourceFile} {file : SourceFile} {output : String}
    (separates : context.Separates fs sources) (member : file ∈ sources)
    (included : ∀ other ∈ others, other ∈ sources) (absent : file ∉ others)
    (isOutput : file.output? context = some output) :
    place context.directory output ∉ context.outputPlaces others := by
  rintro ⟨other, isOther, otherOutput, isOtherOutput, same⟩
  have alike := separates.distinct other (included other isOther) file member isOtherOutput
    isOutput same
  rw [alike] at isOther
  exact absent isOther

/-- Each file of a build is settled from how the build found it. -/
theorem Build.files_settle {context : BuildContext} {fs : FileSystem}
    {sources : List SourceFile} (separates : context.Separates fs sources)
    (distinct : sources.Nodup)
    (written : ∀ outcome ∈ (files context fs sources).2.1, ¬ outcome.IsUnwritten) :
    List.Forall₂ (fun file outcome => outcome.relative = file.relative ∧
        file.Settles context fs (files context fs sources).1 outcome.result)
      sources (files context fs sources).2.1 := by
  induction sources generalizing fs with
  | nil => exact .nil
  | cons file rest inductionHypothesis =>
      have built := file.builds_build context fs
      obtain ⟨fresh, restDistinct⟩ := List.nodup_cons.mp distinct
      have keptByOwn : Keeps (context.outputPlaces [file]) fs (file.build context fs).1 :=
        built.keeps List.mem_cons_self
      have keptByRest := keeps_files context (file.build context fs).1 rest
      obtain ⟨named, settled⟩ :=
        SourceFile.settles_of_builds built (written _ List.mem_cons_self)
      refine .cons ⟨named, settled.later keptByRest fun output isOutput => ?_⟩ ?_
      · exact separates.output_outside List.mem_cons_self
          (fun other member => List.mem_cons_of_mem _ member) fresh isOutput
      · have later := inductionHypothesis (separates.rest keptByOwn) restDistinct
          fun outcome member => written outcome (List.mem_cons_of_mem _ member)
        -- The others were not touched when the first file was built.
        refine (forall₂_members later).imp ?_
        rintro other outcome ⟨⟨member, _⟩, named, settled⟩
        have isOther := List.mem_cons_of_mem file member
        have differs : other ∉ [file] := by
          rw [List.mem_singleton]
          rintro rfl
          exact fresh member
        refine ⟨named, settled.earlier ?_ fun output isOutput => ?_⟩
        · exact SourceFile.Builds.read?_eq separates isOther (built.keeps List.mem_cons_self)
        · refine keptByOwn.contents _ (separates.output_outside isOther ?_ differs isOutput)
          simp

/-! ## The cache after a build -/

def FileOutcome.cached (outcome : FileOutcome) : Option CachedFile :=
  match outcome.result with
  | .error _ => none
  | .ok (_, repositories) => some ⟨outcome.contentHash, repositories⟩

theorem FileOutcome.isSome_cached (outcome : FileOutcome) :
    outcome.cached.isSome = !outcome.isFailed := by
  unfold cached isFailed
  cases outcome.result <;> rfl

/-- A file fails or has one of the three statuses. -/
theorem FileOutcome.statuses_or_failed (outcome : FileOutcome) :
    (if outcome.hasStatus .transformed then 1 else 0) +
        (if outcome.hasStatus .copied then 1 else 0) +
        (if outcome.hasStatus .unchanged then 1 else 0) +
        (if outcome.isFailed then 1 else 0) = 1 := by
  obtain ⟨relative, contentHash, result⟩ := outcome
  cases result with
  | error error => rfl
  | ok built =>
      obtain ⟨status, repositories⟩ := built
      cases status <;> rfl

namespace Build

variable {outcomes : List FileOutcome} {outcome : FileOutcome} {relative : String}

theorem get?_foldl_record_of_fresh (cache : BuildCache)
    (fresh : relative ∉ outcomes.map FileOutcome.relative) :
    (outcomes.foldl (fun cache outcome => outcome.record cache) cache).files.get? relative =
      cache.files.get? relative := by
  induction outcomes generalizing cache with
  | nil => rfl
  | cons first rest inductionHypothesis =>
      rw [List.map_cons, List.mem_cons, not_or] at fresh
      rw [List.foldl_cons, inductionHypothesis _ fresh.2, FileOutcome.get?_record,
        if_neg fresh.1]

theorem get?_foldl_record_of_mem (cache : BuildCache)
    (distinct : (outcomes.map FileOutcome.relative).Nodup) (member : outcome ∈ outcomes) :
    (outcomes.foldl (fun cache outcome => outcome.record cache) cache).files.get?
      outcome.relative = outcome.cached := by
  induction outcomes generalizing cache with
  | nil => cases member
  | cons first rest inductionHypothesis =>
      rw [List.map_cons, List.nodup_cons] at distinct
      rw [List.foldl_cons]
      rcases List.mem_cons.mp member with rfl | later
      · rw [get?_foldl_record_of_fresh _ distinct.1, FileOutcome.get?_record, if_pos rfl]
        rfl
      · exact inductionHypothesis _ distinct.2 later

theorem get?_retained (cache : BuildCache) (outcomes : List FileOutcome) (relative : String) :
    (updatedCache cache outcomes).files.get? relative =
      if relative ∈ outcomes.map FileOutcome.relative then
        (outcomes.foldl (fun cache outcome => outcome.record cache) cache).files.get? relative
      else none := by
  have filtered := SortedMap.get?_filterKeys
    (outcomes.foldl (fun cache outcome => outcome.record cache) cache).files
    (fun path => (outcomes.map FileOutcome.relative).contains path) relative
  simp only [List.contains_iff_mem] at filtered
  exact filtered

/-- After a build the cache knows of each file what its outcome says, whatever it knew before. -/
theorem get?_updatedCache_of_mem (cache : BuildCache)
    (distinct : (outcomes.map FileOutcome.relative).Nodup) (member : outcome ∈ outcomes) :
    (updatedCache cache outcomes).files.get? outcome.relative = outcome.cached := by
  rw [get?_retained, if_pos (List.mem_map_of_mem member),
    get?_foldl_record_of_mem cache distinct member]

theorem get?_updatedCache_of_fresh (cache : BuildCache)
    (fresh : relative ∉ outcomes.map FileOutcome.relative) :
    (updatedCache cache outcomes).files.get? relative = none := by
  rw [get?_retained, if_neg fresh]

theorem isSome_get?_updatedCache (cache : BuildCache)
    (distinct : (outcomes.map FileOutcome.relative).Nodup) (relative : String) :
    ((updatedCache cache outcomes).files.get? relative).isSome = true ↔
      ∃ outcome ∈ outcomes, outcome.relative = relative ∧ outcome.isFailed = false := by
  constructor
  · intro known
    by_cases seen : relative ∈ outcomes.map FileOutcome.relative
    · obtain ⟨outcome, member, rfl⟩ := List.mem_map.mp seen
      rw [get?_updatedCache_of_mem cache distinct member, FileOutcome.isSome_cached] at known
      exact ⟨outcome, member, rfl, by simpa using known⟩
    · rw [get?_updatedCache_of_fresh cache seen] at known
      cases known
  · rintro ⟨outcome, member, rfl, succeeded⟩
    rw [get?_updatedCache_of_mem cache distinct member, FileOutcome.isSome_cached, succeeded]
    rfl

theorem length_files (context : BuildContext) (fs : FileSystem) (sources : List SourceFile) :
    (files context fs sources).2.1.length = sources.length := by
  induction sources generalizing fs with
  | nil => rfl
  | cons file rest inductionHypothesis => exact congrArg (· + 1) (inductionHypothesis _)

theorem size_updatedCache (cache : BuildCache)
    (distinct : (outcomes.map FileOutcome.relative).Nodup) :
    (updatedCache cache outcomes).size + failures outcomes = outcomes.length := by
  have keys : (updatedCache cache outcomes).files.keys.Perm
      ((outcomes.filter fun outcome => !outcome.isFailed).map FileOutcome.relative) := by
    refine (List.perm_ext_iff_of_nodup (SortedMap.nodup_keys _) ?_).mpr fun relative => ?_
    · exact distinct.sublist (List.filter_sublist.map _)
    · rw [SortedMap.mem_keys, isSome_get?_updatedCache cache distinct]
      simp only [List.mem_map, List.mem_filter, Bool.not_eq_true', and_assoc]
      exact exists_congr fun outcome => and_congr_right fun _ => and_comm
  have size : (updatedCache cache outcomes).size =
      outcomes.countP fun outcome => !outcome.isFailed := by
    rw [List.countP_eq_length_filter, ← List.length_map, ← keys.length_eq, SortedMap.keys,
      List.length_map]
    rfl
  have partition := List.length_eq_countP_add_countP (l := outcomes) FileOutcome.isFailed
  simp only [Bool.not_eq_true, Bool.decide_eq_false] at partition
  rw [size, failures]
  omega

theorem countP_statuses (outcomes : List FileOutcome) :
    outcomes.countP (fun outcome => outcome.hasStatus .transformed) +
        outcomes.countP (fun outcome => outcome.hasStatus .copied) +
        outcomes.countP (fun outcome => outcome.hasStatus .unchanged) + failures outcomes =
      outcomes.length := by
  induction outcomes with
  | nil => rfl
  | cons outcome rest inductionHypothesis =>
      have one := outcome.statuses_or_failed
      simp only [failures, List.countP_cons, List.length_cons] at inductionHypothesis ⊢
      omega

theorem Concludes.fs_of_failures {config : Config} {directory : Location} {project : String}
    {stored : FileSystem.Attempt} {after : FileSystem} {result : Except Error BuildReport}
    (concludes : Concludes config directory project outcomes stored after result)
    (faulty : failures outcomes ≠ 0) : after = stored.fs := by
  cases concludes with
  | published _ clear _ => exact absurd clear faulty
  | _ => rfl

end Build

/-! ## Whole builds -/

namespace Project

theorem validate_eq_error {config : Config} {error : Error}
    (refused : config.validate = .error error) : ∃ fault, error = .config fault := by
  unfold Config.validate PassOptions.validate at refused
  repeat' split at refused
  all_goals cases refused
  all_goals exact ⟨_, rfl⟩

theorem rulesOf_eq_error {lines : List String} {error : Error}
    (refused : Selection.rulesOf lines = .error error) : ∃ fault, error = .config fault := by
  induction lines with
  | nil => cases refused
  | cons line rest inductionHypothesis =>
      unfold Selection.rulesOf at refused
      split at refused
      · cases refused
        exact ⟨_, rfl⟩
      · exact inductionHypothesis refused
      · cases rules : Selection.rulesOf rest with
        | error fault =>
            rw [rules] at refused
            cases refused
            exact inductionHypothesis rules
        | ok rules =>
            rw [rules] at refused
            cases refused

theorem ofSettings_eq_error {project : String} {included excluded skipped : List String}
    {error : Error}
    (refused : Selection.ofSettings project included excluded skipped = .error error) :
    ∃ fault, error = .config fault := by
  unfold Selection.ofSettings at refused
  cases read : Selection.rulesOf (Selection.lines project included excluded skipped) with
  | error fault =>
      rw [read] at refused
      cases refused
      exact rulesOf_eq_error read
  | ok rules =>
      rw [read] at refused
      dsimp only [bind, Except.bind] at refused
      split at refused
      · cases refused
      · cases refused
        exact ⟨_, rfl⟩

/-- A build that finds no files at all was given an unusable configuration. -/
theorem sources_eq_error {project : Project} {call : BuildCall} {error : Error}
    (refused : project.sources call = .error error) : ∃ fault, error = .config fault := by
  cases valid : call.config.validate with
  | error fault =>
      rw [sources_of_invalid valid] at refused
      cases refused
      exact validate_eq_error valid
  | ok =>
      rw [sources_of_valid valid, Scan.sourceFiles] at refused
      cases selected : Selection.ofSettings project.path call.config.included
          call.config.excluded [call.config.outPath project.path] with
      | error fault =>
          rw [selected] at refused
          cases refused
          exact ofSettings_eq_error selected
      | ok selection =>
          rw [selected] at refused
          dsimp only [bind, Except.bind] at refused
          split at refused <;> cases refused

/-- What is asked of a build whose accounts should come out: whatever it tries to write is written,
no two of its files have one relative path, and no output is a file that it reads or the
manifest. -/
structure WellPlaced (project : Project) (call : BuildCall) : Prop where
  wellFormed : call.before.WellFormed
  written : project.WritesSucceed call
  distinct : ((project.listed call).map SourceFile.relative).Nodup
  inputs : ∀ location ∈ project.inputPlaces call, location ∉ project.outputPlaces call
  manifest : ∀ location ∈ project.manifestPlace? call, location ∉ project.outputPlaces call

/-- What a build comes to that found its files. -/
structure AccountsFor (project : Project) (call : BuildCall) (found : List SourceFile) : Prop where
  files : List.Forall₂ (fun file outcome => outcome.relative = file.relative ∧
      file.Settles (project.context call) call.before (project.run call).fs outcome.result)
    found (project.outcomes call found)
  cache : call.config.incremental = true → ∃ cache,
    (project.run call).fs.cacheAt? (project.cachePlace call) = some cache ∧
    cache.size + Build.failures (project.outcomes call found) = found.length ∧
    ∀ relative, (cache.files.get? relative).isSome = true ↔
      ∃ outcome ∈ project.outcomes call found,
        outcome.relative = relative ∧ outcome.isFailed = false
  failed : Build.failures (project.outcomes call found) ≠ 0 →
    (project.run call).result =
      .error (.build (.filesFailed (Build.failures (project.outcomes call found)) found.length)) ∧
    ∀ location ∈ project.manifestPlace? call,
      (project.run call).fs.content? location = call.before.content? location
  succeeded : Build.failures (project.outcomes call found) = 0 → ∃ report,
    (project.run call).result = .ok report ∧
    report.filesSeen = found.length ∧
    report.filesTransformed + report.filesCopied + report.filesUnchanged = report.filesSeen ∧
    report.filesFailed = 0 ∧
    report.classesQuoted = (Build.repositories (project.outcomes call found)).length ∧
    report.methodsQuoted =
      Transformed.countMethods (Build.repositories (project.outcomes call found)) ∧
    report.manifestPath = call.config.manifestPath? project.path ∧
    ∀ path ∈ report.manifestPath, (project.run call).fs.read? project.directory path =
      some (Build.manifestBytes (project.outcomes call found))

/-- The accounts of a build: an unusable configuration changes nothing, and any other build
accounts for the files that it finds. -/
def HasAccounts (project : Project) (call : BuildCall) : Prop :=
  (∀ fault, (project.run call).result = .error (.config fault) →
    (project.run call).fs = call.before) ∧
  ((∃ fault, (project.run call).result = .error (.config fault)) ∨
    ∃ found, project.sources call = .ok found ∧ project.AccountsFor call found)

variable {project : Project} {call : BuildCall} {found : List SourceFile}

section Found

variable (wellPlaced : project.WellPlaced call) (isFound : project.sources call = .ok found)
include wellPlaced isFound

theorem WellPlaced.files_settle :
    List.Forall₂ (fun file outcome => outcome.relative = file.relative ∧
        file.Settles (project.context call) call.before (project.built call found) outcome.result)
      found (project.outcomes call found) := by
  have distinct := wellPlaced.distinct
  have written := wellPlaced.written.2
  rw [listed_eq isFound] at distinct written
  exact Build.files_settle (separates_of_apart wellPlaced.wellFormed isFound wellPlaced.inputs)
    (List.Pairwise.of_map SourceFile.relative
      (fun _ _ differs same => differs (congrArg _ same)) distinct) written

theorem WellPlaced.relatives_eq :
    (project.outcomes call found).map FileOutcome.relative = found.map SourceFile.relative := by
  have named := (wellPlaced.files_settle isFound).imp fun _ _ settled => settled.1
  have same : List.Forall₂ Eq ((project.outcomes call found).map FileOutcome.relative)
      (found.map SourceFile.relative) := by
    rw [List.forall₂_map_left_iff, List.forall₂_map_right_iff]
    exact named.flip
  rwa [List.forall₂_eq_eq_eq] at same

theorem WellPlaced.accounts_files :
    List.Forall₂ (fun file outcome => outcome.relative = file.relative ∧
        file.Settles (project.context call) call.before (project.run call).fs outcome.result)
      found (project.outcomes call found) := by
  refine (forall₂_members (wellPlaced.files_settle isFound)).imp ?_
  rintro file outcome ⟨⟨member, _⟩, named, settled⟩
  refine ⟨named, settled.later (keeps_run isFound) fun output isOutput => ?_⟩
  exact output_not_concluded wellPlaced.wellFormed isFound wellPlaced.manifest
    ⟨file, member, output, isOutput, rfl⟩

theorem WellPlaced.manifest_untouched
    (separate : call.config.incremental = true →
      ∀ location ∈ project.manifestPlace? call, location ≠ project.cachePlace call)
    (faulty : Build.failures (project.outcomes call found) ≠ 0) {location : Location}
    (isManifest : location ∈ project.manifestPlace? call) :
    (project.run call).fs.content? location = call.before.content? location := by
  have kept := Build.keeps_files (project.context call) call.before found
  have untouched : (project.built call found).content? location =
      call.before.content? location := by
    refine kept.contents location fun isOutput => ?_
    exact wellPlaced.manifest location isManifest ((mem_outputPlaces isFound).mpr isOutput)
  rw [(concludes_run isFound).fs_of_failures faulty, ← untouched, stored, Build.storing]
  split
  · next incremental =>
      exact (FileSystem.keeps_save _ _ _ _).contents _ (separate incremental location isManifest)
  · rfl

end Found

theorem cachePlace_ne_manifest
    (separate : ∀ location ∈ project.manifestPlace? call, location ≠ project.cachePlace call) :
    ∀ manifest, call.config.manifestPath? project.path = some manifest →
      project.cachePlace call ≠ place project.directory manifest := by
  intro manifest named
  refine (separate _ ?_).symm
  rw [manifestPlace?, named]
  rfl

/-- A build contains its failures and accounts for its files, as long as cache and manifest are
not one file. -/
theorem build_accounts (wellPlaced : project.WellPlaced call)
    (separate : call.config.incremental = true →
      ∀ location ∈ project.manifestPlace? call, location ≠ project.cachePlace call) :
    project.HasAccounts call := by
  cases isFound : project.sources call with
  | error error =>
      obtain ⟨fault, rfl⟩ := sources_eq_error isFound
      have ended := run_of_sources_error isFound
      rw [HasAccounts, ended]
      exact ⟨fun _ _ => rfl, .inl ⟨fault, rfl⟩⟩
  | ok found =>
      have wrote := wellPlaced.written.1
      have relatives := wellPlaced.relatives_eq isFound
      have length : (project.outcomes call found).length = found.length :=
        Build.length_files _ _ _
      have distinct : ((project.outcomes call found).map FileOutcome.relative).Nodup := by
        rw [relatives, ← listed_eq isFound]
        exact wellPlaced.distinct
      obtain ⟨isStored, result⟩ := (concludes_run isFound).result_eq wrote
      refine ⟨fun fault refused => ?_, .inr ⟨found, isFound, ?_⟩⟩
      · rw [result] at refused
        split at refused <;> cases refused
      · refine ⟨wellPlaced.accounts_files isFound, fun incremental => ?_, fun faulty => ?_,
          fun clear => ?_⟩
        · have apart := cachePlace_ne_manifest (separate incremental)
          have stands := FileSystem.content?_of_read? (read?_cache isFound incremental wrote apart)
          refine ⟨_, Build.cacheAt?_eq_some_of_cache (loaded_options project call).1 stands, ?_, ?_⟩
          · rw [Build.size_updatedCache _ distinct, length]
          · exact Build.isSome_get?_updatedCache _ distinct
        · rw [result, if_neg faulty, length]
          exact ⟨rfl, fun location isManifest =>
            wellPlaced.manifest_untouched isFound separate faulty isManifest⟩
        · rw [if_pos clear] at result
          have statuses := Build.countP_statuses (project.outcomes call found)
          refine ⟨_, result, length, ?_, clear, rfl, rfl, rfl, fun path named => ?_⟩
          · rw [clear] at statuses
            exact statuses
          · exact (concludes_run isFound).read?_manifest result named

end Project

namespace Sample

open SourceQuote.Project

def outsideFile : SourceFile := ⟨"/p/b.ts", "b.ts", .typeScript⟩

def insideFile : SourceFile := ⟨"/p/src/a.ts", "src/a.ts", .typeScript⟩

/-- A build of a file outside of its root and of one with a marked class. -/
def mixedBuild : BuildCall :=
  ⟨holding [("/p/b.ts", ""), ("/p/src/a.ts", markedSource)], [],
    { included := ["**/*.ts"], rootDir := "src" }⟩

/-- A build of a file outside of its root, with the cache file as its manifest. -/
def cacheAsManifest : BuildCall :=
  ⟨holding [("/p/b.ts", ""), ("/p/dist/.tsq-cache.json", "last manifest\n")], [],
    { included := ["*.ts"], rootDir := "src", manifest := some BuildCache.fileName }⟩

/-- What is checked of a build that finds some files: the file system is in order, each file that
was read fails or is written, and no output is an input or the manifest. -/
def Checked (call : BuildCall) (found : List SourceFile) : Prop :=
  call.before.WellFormed ∧
  (∀ outcome ∈ project.outcomes call found, outcome.result.map (fun _ => ()) ≠ .error .file) ∧
  (found.map SourceFile.relative).Nodup ∧
  (∀ file ∈ found, ∀ other ∈ found, ∀ output ∈ other.output? (project.context call),
    FileSystem.place [] output ≠ FileSystem.place [] file.path) ∧
  ∀ other ∈ found, ∀ output ∈ other.output? (project.context call),
    ∀ location ∈ project.manifestPlace? call, FileSystem.place [] output ≠ location

instance (call : BuildCall) (found : List SourceFile) : Decidable (Checked call found) :=
  inferInstanceAs (Decidable (_ ∧ _))

theorem wellPlaced_of_checked {call : BuildCall} {found : List SourceFile}
    (isFound : project.sources call = .ok found) (checked : Checked call found)
    (wrote : (project.run call).result ≠ .error .file) : project.WellPlaced call := by
  obtain ⟨wellFormed, written, distinct, inputs, manifest⟩ := checked
  refine ⟨wellFormed, ⟨wrote, ?_⟩, ?_, ?_, ?_⟩
  · rw [listed_eq isFound]
    intro outcome member unwritten
    refine written outcome member ?_
    rw [unwritten.1]
    rfl
  · rwa [listed_eq isFound]
  · intro location isInput isOutput
    obtain ⟨file, member, rfl⟩ := List.mem_map.mp isInput
    obtain ⟨other, isOther, placed⟩ := List.mem_filterMap.mp isOutput
    obtain ⟨output, isOutput, same⟩ := Option.map_eq_some_iff.mp placed
    rw [listed_eq isFound] at member isOther
    exact inputs file member other isOther output isOutput same
  · intro location isManifest isOutput
    obtain ⟨other, isOther, placed⟩ := List.mem_filterMap.mp isOutput
    obtain ⟨output, isOutput, same⟩ := Option.map_eq_some_iff.mp placed
    rw [listed_eq isFound] at isOther
    exact manifest other isOther output isOutput location isManifest same

theorem checked_mixed :
    project.listing mixedBuild = .ok [outsideFile, insideFile] ∧
    Scan.le outsideFile insideFile = true ∧
    (project.concludedWith mixedBuild (project.loaded mixedBuild) [outsideFile, insideFile]).2 =
      .error (.build (.filesFailed 1 2)) ∧
    Checked mixedBuild [outsideFile, insideFile] ∧
    ∀ location ∈ project.manifestPlace? mixedBuild, location ≠ project.cachePlace mixedBuild := by
  decide +kernel

theorem checked_cacheAsManifest :
    project.sources cacheAsManifest = .ok [outsideFile] ∧
    (project.run cacheAsManifest).result = .error (.build (.filesFailed 1 1)) ∧
    Checked cacheAsManifest [outsideFile] ∧
    Build.failures (project.outcomes cacheAsManifest [outsideFile]) = 1 ∧
    project.manifestPlace? cacheAsManifest = some (project.cachePlace cacheAsManifest) ∧
    (cacheAsManifest.before.cacheAt? (project.cachePlace cacheAsManifest)).isNone = true := by
  decide +kernel

end Sample

namespace Project

open Sample

theorem build_accounts_mixed :
    (project.run mixedBuild).result = .error (.build (.filesFailed 1 2)) ∧
      project.WellPlaced mixedBuild ∧ project.HasAccounts mixedBuild := by
  obtain ⟨isListing, sorted, result, checked, separate⟩ := checked_mixed
  have isFound : project.sources mixedBuild = .ok [outsideFile, insideFile] :=
    sources_of_sorted isListing (by simp [sorted])
  have ended := (run_of_loaded isFound rfl).2.trans result
  have wellPlaced := wellPlaced_of_checked isFound checked (by rw [ended]; simp)
  exact ⟨ended, wellPlaced, build_accounts wellPlaced fun _ => separate⟩

/-- With the cache file as its manifest, a build that fails overwrites the manifest. -/
theorem unaccounted_cacheAsManifest :
    project.WellPlaced cacheAsManifest ∧ ¬ project.HasAccounts cacheAsManifest := by
  obtain ⟨isFound, result, checked, faulty, isManifest, noCache⟩ := checked_cacheAsManifest
  refine ⟨wellPlaced_of_checked isFound checked (by rw [result]; simp), ?_⟩
  rintro ⟨_, ⟨fault, refused⟩ | ⟨found, isOther, accounts⟩⟩
  · rw [result] at refused
    cases refused
  · rw [isFound] at isOther
    cases isOther
    obtain ⟨cache, stored, _⟩ := accounts.cache rfl
    have untouched := (accounts.failed (by rw [faulty]; decide)).2 _ isManifest
    rw [FileSystem.cacheAt?, untouched, ← FileSystem.cacheAt?] at stored
    rw [stored] at noCache
    cases noCache

end Project

end SourceQuote

import SourceQuote.Proofs.Project.History
import SourceQuote.Proofs.Project.Routes
import SourceQuote.Proofs.Scan.Skipping

/-!
Contract: what becomes of the files that a build reads.

Owns: when a listed file has the same bytes after a build as before, and the output directories
that keep a build from writing to its own sources.

A source is lost only where an output or the manifest takes its place. An output keeps the name
of its source, so with the project itself for an output directory every source is overwritten by
its own output. A directory below the project is safe if its names are skippable: the scan leaves it
out, so that no source lies where the outputs go.
-/

namespace SourceQuote

open SourceQuote.FileSystem (Keeps isInside place)

namespace Project

variable {project : Project} {call : BuildCall} {found : List SourceFile} {file : SourceFile}

/-- Whether a file has the bytes after a build that it had before, and is read as before. -/
structure Retains (project : Project) (call : BuildCall) (file : SourceFile) : Prop where
  bytes : ∃ content, call.before.content? (place project.directory file.path) = some content ∧
    (project.run call).fs.content? (place project.directory file.path) = some content
  read : (project.run call).fs.read? project.directory file.path =
    call.before.read? project.directory file.path

/-- Whether the sources of a project stay out of the output directory: it lies below the project
and has skippable names, so that the scan leaves it out, or neither lies in the other. -/
def KeepsOutApart (project : Project) (call : BuildCall) : Prop :=
  (∃ names, Path.SkippableRoute names ∧
    Path.below? (call.config.outPath project.path) project.path =
      some ("/".intercalate names)) ∨
  (¬ project.outPlace call <+: place project.directory project.path ∧
    ¬ place project.directory project.path <+: project.outPlace call)

/-! ## Places -/

theorem place_ne_cachePlace (wellFormed : call.before.WellFormed)
    (isFound : project.sources call = .ok found) (member : file ∈ found) :
    place project.directory file.path ≠ project.cachePlace call := by
  obtain ⟨names, stands⟩ := exists_stands wellFormed isFound member
  rw [stands.place_path, cachePlace_eq]
  intro same
  have lasts := congrArg List.getLast? same
  rw [List.getLast?_append_of_ne_nil _ stands.nonempty, List.getLast?_concat] at lasts
  exact stands.getLast?_names lasts

/-- No listed file lies where the outputs go. -/
theorem not_prefix_out (wellFormed : call.before.WellFormed) (apart : project.KeepsOutApart call)
    (isFound : project.sources call = .ok found) (member : file ∈ found) :
    ¬ project.outPlace call <+: place project.directory file.path := by
  obtain ⟨names, stands⟩ := exists_stands wellFormed isFound member
  rcases apart with ⟨skipped, route, below⟩ | ⟨notAbove, notBelow⟩
  · rw [outPlace, FileSystem.place_of_below? _ stands.project_ne_empty route.nonempty route.proper
      below]
    exact SourceFile.not_prefix_of_skipped wellFormed route below List.mem_cons_self
      (sources_eq_ok isFound).2 member
  · -- The output directory and the project are both above the file, so one is above the other.
    rw [stands.place_path]
    intro above
    rcases List.prefix_or_prefix_of_prefix above (List.prefix_append _ names) with
      outAbove | outBelow
    · exact notAbove outAbove
    · exact notBelow outBelow

/-- The outputs of a build go to the output directory. -/
theorem out_prefix_of_mem_outputPlaces (wellFormed : call.before.WellFormed)
    (direct : project.IsDirect call) {location : Location}
    (isOutput : location ∈ project.outputPlaces call) :
    project.outPlace call <+: location := by
  obtain ⟨file, member, named⟩ := List.mem_filterMap.mp isOutput
  obtain ⟨found, isFound, isListed⟩ := sources_of_mem_listed member
  obtain ⟨names, stands⟩ := exists_stands wellFormed isFound isListed
  obtain ⟨output, isPath, rfl⟩ := Option.map_eq_some_iff.mp named
  obtain ⟨within, below, rfl⟩ := Option.map_eq_some_iff.mp isPath
  obtain ⟨tail, leads⟩ := exists_leads direct stands below
  exact ⟨tail, leads.place_output.symm⟩

/-! ## Sources -/

theorem retains_of_not_written (wellFormed : call.before.WellFormed)
    (isFound : project.sources call = .ok found) (member : file ∈ found)
    (untouched : place project.directory file.path ∉ project.writtenPlaces call) :
    project.Retains call file := by
  obtain ⟨names, stands⟩ := exists_stands wellFormed isFound member
  have keeps := keeps_writtenPlaces project call
  obtain ⟨content, holds⟩ := stands.holds
  rw [← stands.place_path] at holds
  exact ⟨⟨content, holds, by rw [keeps.contents _ untouched, holds]⟩,
    stands.read?_eq wellFormed keeps untouched⟩

/-- A build leaves the files that it reads as they are, unless an output or the manifest goes to
the place of one; and none does if the outputs and the manifest go to a directory that the sources
stay out of. -/
theorem inputs_retained (wellFormed : call.before.WellFormed) :
    (∀ file ∈ project.listed call,
      place project.directory file.path ∉ project.outputPlaces call →
      place project.directory file.path ∉ project.manifestPlace? call →
      project.Retains call file) ∧
    (project.IsDirect call → project.KeepsOutApart call →
      (∀ location ∈ project.manifestPlace? call,
        isInside (project.outPlace call) location = true) →
      ∀ file ∈ project.listed call, project.Retains call file) := by
  have retained : ∀ file ∈ project.listed call,
      place project.directory file.path ∉ project.outputPlaces call →
      place project.directory file.path ∉ project.manifestPlace? call →
      project.Retains call file := by
    intro file member noOutput noManifest
    obtain ⟨found, isFound, isListed⟩ := sources_of_mem_listed member
    refine retains_of_not_written wellFormed isFound isListed ?_
    rw [mem_writtenPlaces, not_or, not_or]
    exact ⟨noOutput, place_ne_cachePlace wellFormed isFound isListed, noManifest⟩
  refine ⟨retained, fun direct apart inside file member => ?_⟩
  obtain ⟨found, isFound, isListed⟩ := sources_of_mem_listed member
  have outside := not_prefix_out wellFormed apart isFound isListed
  refine retained file member (fun isOutput => ?_) (fun isManifest => ?_)
  · exact outside (out_prefix_of_mem_outputPlaces wellFormed direct isOutput)
  · obtain ⟨below, _, split⟩ := FileSystem.isInside_iff.mp (inside _ isManifest)
    exact outside ⟨below, split.symm⟩

/-- A build of one file that is not known to the cache saves its output. -/
theorem built_of_produced {content : ByteArray} {within : String} {transformed : Transformed}
    (read : call.before.read? project.directory file.path = some content)
    (below : Path.below? file.path (project.context call).root = some within)
    (fresh : file.cached? (project.context call) call.before
      (Path.join (project.context call).out within) (Sha256.hexDigest content) = none)
    (passed : file.transformed (project.context call) within content = .ok transformed) :
    project.built call [file] =
      (call.before.save project.directory (Path.join (project.context call).out within)
        transformed.source.toByteArray).fs := by
  change (file.build (project.context call) call.before).1 = _
  simp only [SourceFile.build, SourceFile.produce, context_directory, read, below, fresh, passed]

end Project

/-! ## Two builds -/

namespace Sample

open SourceQuote.Project

theorem skippable_dist : Path.SkippableRoute ["dist"] := by
  have text : ("/".intercalate ["dist"]).toList = ['d', 'i', 's', 't'] := rfl
  refine ⟨by simp, by decide, ?_, ?_⟩
  · rw [text]
    simp only [List.mem_cons, List.not_mem_nil, or_false, forall_eq_or_imp, forall_eq]
    decide
  · rw [text, List.getLast?_eq_some_getLast (by simp)]
    simp only [Option.mem_some_iff, forall_eq']
    decide

theorem checked_besideOut :
    loneBuild.before.WellFormed ∧ project.sources loneBuild = .ok [loneFile] ∧
    project.IsDirect loneBuild ∧
    Path.below? (loneBuild.config.outPath project.path) project.path =
      some ("/".intercalate ["dist"]) ∧
    ∀ location ∈ project.manifestPlace? loneBuild,
      isInside (project.outPlace loneBuild) location = true := by
  decide +kernel

/-- A build whose output directory is the project itself. -/
def inPlaceBuild : BuildCall :=
  { loneBuild with config := { outDir := ".", included := ["*.ts"] } }

def markedEdits : List Edit :=
  [⟨0, 8, ""⟩, ⟨17, 17, "\nquoted.saveRepo(A, \x7b\x7d);"⟩]

def unmarkedSource : String := "class A\x7b\x7d\nquoted.saveRepo(A, \x7b\x7d);"

theorem apply_markedEdits : Edit.apply markedSource markedEdits = unmarkedSource := by
  rw [Edit.apply, List.mergeSort_of_pairwise (by simp [markedEdits, Edit.le])]
  decide +kernel

theorem transformed_inPlace :
    loneFile.transformed (project.context inPlaceBuild) "a.ts" markedSource.toByteArray =
      .ok ⟨unmarkedSource, [Repository.empty (.forPath "a.ts" "A")]⟩ := by
  rw [← apply_markedEdits]
  rfl

theorem checked_inPlace :
    inPlaceBuild.before.WellFormed ∧ inPlaceBuild.config.validate = .ok () ∧
    project.sources inPlaceBuild = .ok [loneFile] ∧
    inPlaceBuild.before.content? ["p", "a.ts"] = some markedSource.toByteArray ∧
    inPlaceBuild.before.read? project.directory loneFile.path =
      some markedSource.toByteArray ∧
    Path.below? loneFile.path (project.context inPlaceBuild).root = some "a.ts" ∧
    (loneFile.cached? (project.context inPlaceBuild) inPlaceBuild.before
      (Path.join (project.context inPlaceBuild).out "a.ts")
      (Sha256.hexDigest markedSource.toByteArray)).isNone = true ∧
    (inPlaceBuild.before.save project.directory
      (Path.join (project.context inPlaceBuild).out "a.ts")
      unmarkedSource.toByteArray).fs.content? ["p", "a.ts"] = some unmarkedSource.toByteArray ∧
    project.manifestPlace? inPlaceBuild ≠ some ["p", "a.ts"] ∧
    place project.directory loneFile.path = ["p", "a.ts"] ∧
    markedSource.toByteArray ≠ unmarkedSource.toByteArray := by
  decide +kernel

theorem content?_inPlace :
    (project.run inPlaceBuild).fs.content? ["p", "a.ts"] = some unmarkedSource.toByteArray := by
  obtain ⟨wellFormed, _, isFound, _, read, below, fresh, saved, elsewhere, placed, _⟩ :=
    checked_inPlace
  have kept : ["p", "a.ts"] ∉ Build.concludedPlaces inPlaceBuild.config project.directory
      project.path := by
    rintro (⟨_, isCache⟩ | ⟨path, named, isManifest⟩)
    · refine place_ne_cachePlace wellFormed isFound List.mem_cons_self ?_
      rw [placed]
      exact isCache.symm
    · exact elsewhere (by rw [manifestPlace?, named, ← isManifest]; rfl)
  rw [Option.isNone_iff_eq_none] at fresh
  rw [(keeps_run isFound).contents _ kept, built_of_produced read below fresh transformed_inPlace,
    saved]

end Sample

namespace Project

open Sample

theorem inputs_retained_lone :
    loneFile ∈ project.listed loneBuild ∧ project.Retains loneBuild loneFile := by
  obtain ⟨wellFormed, isFound, direct, below, inside⟩ := checked_besideOut
  have member : loneFile ∈ project.listed loneBuild := by simp [listed_eq isFound]
  exact ⟨member, (inputs_retained wellFormed).2 direct
    (Or.inl ⟨["dist"], skippable_dist, below⟩) inside loneFile member⟩

/-- A build into the project itself overwrites a source with its output. -/
theorem input_lost_inPlace :
    inPlaceBuild.before.WellFormed ∧ inPlaceBuild.config.validate = .ok () ∧
    ∃ file ∈ project.listed inPlaceBuild, ¬ project.Retains inPlaceBuild file := by
  obtain ⟨wellFormed, valid, isFound, source, _, _, _, _, _, placed, differ⟩ := checked_inPlace
  refine ⟨wellFormed, valid, loneFile, by simp [listed_eq isFound], fun retains => ?_⟩
  obtain ⟨content, before, after⟩ := retains.bytes
  rw [placed, source] at before
  rw [placed, content?_inPlace] at after
  exact differ (Option.some.inj (before.trans after.symm))

end Project

end SourceQuote

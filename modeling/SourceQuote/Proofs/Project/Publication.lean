import SourceQuote.Proofs.Pass.Repositories
import SourceQuote.Proofs.Project.Footprint
import SourceQuote.Proofs.Storage.Files

/-!
Contract: what a registry knows after loading the manifest of a build.

Owns: registration of many repositories at once, the identities of the marked classes of a build,
and the theorem that a registry holds each of them under its own identity if no two are the same.

An identity is made of the module name and the class name, and a module name drops the extension
of its file. So classes of two files can have one identity, and then the later one replaces the
earlier.
-/

namespace SourceQuote

/-! ## Registration -/

namespace Registry

/-- Repositories of different classes do not displace each other. -/
theorem get?_registerAll {repositories : List Repository} (registry : Registry)
    {repository : Repository} (distinct : (repositories.map Repository.classId).Nodup)
    (member : repository ∈ repositories) :
    (registry.registerAll repositories).repositories.get? repository.classId =
      some repository := by
  have alone : (repositories.filter fun other => other.classId = repository.classId) =
      [repository] := by
    induction repositories with
    | nil => cases member
    | cons first rest inductionHypothesis =>
        rw [List.map_cons, List.nodup_cons] at distinct
        rcases List.mem_cons.mp member with rfl | later
        · have others : (rest.filter fun other => other.classId = repository.classId) = [] := by
            rw [List.filter_eq_nil_iff]
            intro other isOther same
            exact distinct.1 (of_decide_eq_true same ▸ List.mem_map_of_mem isOther)
          rw [List.filter_cons_of_pos (by simp), others]
        · have differs : first.classId ≠ repository.classId := by
            intro same
            exact distinct.1 (same ▸ List.mem_map_of_mem later)
          rw [List.filter_cons_of_neg (by simpa using differs),
            inductionHypothesis distinct.2 later]
  rw [get?_registerAll_eq, alone]
  rfl

theorem size_registerAll {repositories : List Repository} {registry : Registry}
    (distinct : (repositories.map Repository.classId).Nodup)
    (fresh : ∀ repository ∈ repositories,
      registry.repositories.get? repository.classId = none) :
    (registry.registerAll repositories).size = registry.size + repositories.length := by
  induction repositories generalizing registry with
  | nil => rfl
  | cons first rest inductionHypothesis =>
      rw [List.map_cons, List.nodup_cons] at distinct
      have grown : (registry.register first.classId first).size = registry.size + 1 :=
        SortedMap.size_insert_of_fresh (fresh first List.mem_cons_self) first
      have stillFresh : ∀ repository ∈ rest,
          (registry.register first.classId first).repositories.get? repository.classId = none := by
        intro repository member
        have differs : repository.classId ≠ first.classId := by
          intro same
          exact distinct.1 (same ▸ List.mem_map_of_mem member)
        rw [register, SortedMap.get?_insert, if_neg differs]
        exact fresh repository (List.mem_cons_of_mem _ member)
      have counted := inductionHypothesis distinct.2 stillFresh
      rw [registerAll, List.foldl_cons]
      refine counted.trans ?_
      rw [grown, List.length_cons]
      omega

/-- A registry that loads the manifest of repositories of different classes has them all. -/
theorem loadManifest_distinct {repositories : List Repository} (path : String)
    (distinct : (repositories.map Repository.classId).Nodup) :
    ∃ registry,
      empty.loadManifest path (some (Manifest.ofRepositories repositories).render) =
        .ok (registry, repositories.length) ∧
      registry.size = repositories.length ∧
      ∀ repository ∈ repositories, registry.lookup repository.classId = .ok repository := by
  refine ⟨_, loadManifest_render empty path repositories, ?_, ?_⟩
  · rw [size_registerAll distinct fun _ _ => rfl]
    exact Nat.zero_add _
  · intro repository member
    rw [lookup, get?_registerAll empty distinct member]

end Registry

/-! ## Identities -/

namespace SourceFile

/-- The identities of the marked classes of a file, in order; none for a file that cannot be
parsed. -/
def identities (context : BuildContext) (fs : FileSystem) (file : SourceFile) : List ClassId :=
  match fs.read? context.directory file.path, Path.below? file.path context.root with
  | some content, some within =>
      match file.unit context within content with
      | .ok unit =>
          (unit.markedSites context.options.marker).filterMap fun site =>
            (site.name? unit.source).map (ClassId.forPath within)
      | .error _ => []
  | _, _ => []

/-- What the pass finds in a file that it accepts: each marked class has a name, and the
repositories are those of the marked classes. -/
structure Quoted (context : BuildContext) (fs : FileSystem) (file : SourceFile)
    (transformed : Transformed) (within : String) (unit : SourceUnit) : Prop where
  below : Path.below? file.path context.root = some within
  parsed : ∃ content, fs.read? context.directory file.path = some content ∧
    file.unit context within content = .ok unit
  quotes : ∀ site ∈ unit.markedSites context.options.marker,
    ∃ name repository, site.Quotes unit name repository ∧
      repository ∈ transformed.repositories ∧
      repository.classId = ClassId.forPath within name

variable {context : BuildContext} {fs : FileSystem} {file : SourceFile}
  {transformed : Transformed}

theorem quoted_of_expected (isExpected : file.expected context fs = .ok transformed) :
    (∃ within unit, file.Quoted context fs transformed within unit) ∧
      transformed.repositories.map Repository.classId = file.identities context fs := by
  obtain ⟨content, within, read, below, passed⟩ := expected_eq_ok isExpected
  obtain ⟨unit, parsed, transforms⟩ := transformed_eq_ok passed
  obtain ⟨quoted, repositories, sites, quotes⟩ := SourceUnit.transform_eq_ok transforms
  have identity : ∀ each ∈ quoted,
      each.repository.classId = ClassId.forPath within each.name := by
    intro each member
    rw [extractClass_classId (quotes each member).2, unit_path parsed,
      ClassId.forPath_forwardSlashes]
  refine ⟨⟨within, unit, below, ⟨content, read, parsed⟩, ?_⟩, ?_⟩
  · intro site isMarked
    rw [← sites] at isMarked
    obtain ⟨each, member, rfl⟩ := List.mem_map.mp isMarked
    refine ⟨each.name, each.repository, quotes each member, ?_, identity each member⟩
    rw [repositories]
    exact List.mem_map_of_mem member
  · simp only [identities, read, below, parsed]
    rw [← sites, List.filterMap_map, repositories, List.map_map]
    symm
    rw [List.filterMap_eq_map_iff_forall_eq_some]
    intro each member
    simp only [Function.comp_apply, (quotes each member).1, Option.map_some,
      identity each member]

end SourceFile

/-! ## The manifest of a build -/

namespace Project

variable {project : Project} {call : BuildCall} {found : List SourceFile} {report : BuildReport}
  {path : String}

/-- In a build that succeeds, the pass accepts every file, and the repositories are those of the
marked classes. -/
theorem accepted_of_succeeded
    (reports : List.Forall₂
      (fun file outcome => outcome.Reports (project.context call) call.before file) found
      (project.outcomes call found))
    (clear : Build.failures (project.outcomes call found) = 0) :
    (∀ file ∈ found, ∃ transformed,
      file.expected (project.context call) call.before = .ok transformed ∧
      transformed.repositories ⊆ Build.repositories (project.outcomes call found)) ∧
    (Build.repositories (project.outcomes call found)).map Repository.classId =
      found.flatMap (SourceFile.identities (project.context call) call.before) := by
  have accepted := Build.accepted_of_reports reports clear
  rw [(Build.reports_totals reports).1]
  refine ⟨fun file member => ?_, ?_⟩
  · obtain ⟨transformed, isExpected⟩ := accepted file member
    refine ⟨transformed, isExpected, fun repository isRepository => ?_⟩
    refine List.mem_flatMap.mpr ⟨file, member, ?_⟩
    rwa [Build.expectedRepositories, isExpected]
  · rw [List.map_flatMap]
    refine List.flatMap_congr fun file member => ?_
    obtain ⟨transformed, isExpected⟩ := accepted file member
    rw [← (SourceFile.quoted_of_expected isExpected).2, Build.expectedRepositories, isExpected]

/-- No marked class is lost on the way to a registry. Loading the manifest of a build registers
as many classes as the build reports, and every marked class of every listed file is found under
its identity with its own repository. -/
theorem registry_complete (wellFormed : call.before.WellFormed)
    (isFound : project.sources call = .ok found)
    (apart : ∀ location ∈ project.inputPlaces call, location ∉ project.outputPlaces call)
    (truthful : ∀ file ∈ found, file.RepositoriesTruthful (project.context call) call.before)
    (distinct : (found.flatMap
      (SourceFile.identities (project.context call) call.before)).Nodup)
    (succeeded : (project.run call).result = .ok report)
    (named : call.config.manifestPath? project.path = some path) :
    ∃ text registry, (project.run call).fs.readText? project.directory path = some text ∧
      Registry.empty.loadManifest path (some text) = .ok (registry, report.classesQuoted) ∧
      registry.size = report.classesQuoted ∧
      ∀ file ∈ found, ∃ within content unit,
        Path.below? file.path (call.config.rootPath project.path) = some within ∧
        call.before.read? project.directory file.path = some content ∧
        file.unit (project.context call) within content = .ok unit ∧
        ∀ site ∈ unit.markedSites call.config.marker, ∃ name repository,
          site.Quotes unit name repository ∧
          registry.lookup (ClassId.forPath within name) = .ok repository := by
  have written := written_of_succeeded isFound succeeded
  obtain ⟨clear, rfl⟩ := report_of_succeeded isFound succeeded
  have reports := Build.files_report (separates_of_apart wellFormed isFound apart) truthful written
  obtain ⟨accepted, identities⟩ := accepted_of_succeeded reports clear
  rw [← identities] at distinct
  obtain ⟨registry, loads, size, finds⟩ := Registry.loadManifest_distinct path distinct
  have read := (concludes_run isFound).read?_manifest succeeded named
  refine ⟨_, registry, FileSystem.readText?_eq_some read, loads, size, ?_⟩
  intro file member
  obtain ⟨transformed, isExpected, included⟩ := accepted file member
  obtain ⟨⟨within, unit, below, ⟨content, isRead, parsed⟩, quotes⟩, _⟩ :=
    SourceFile.quoted_of_expected isExpected
  refine ⟨within, content, unit, below, isRead, parsed, fun site isMarked => ?_⟩
  obtain ⟨name, repository, isQuoted, isRepository, identity⟩ := quotes site isMarked
  refine ⟨name, repository, isQuoted, ?_⟩
  rw [← identity]
  exact finds repository (included isRepository)

end Project

namespace Sample

def pairBuild : BuildCall :=
  ⟨holding [("/p/a.ts", markedSource), ("/p/b.ts", markedSource)], [], { included := ["*.ts"] }⟩

def pair : List SourceFile :=
  [⟨"/p/a.ts", "a.ts", .typeScript⟩, ⟨"/p/b.ts", "b.ts", .typeScript⟩]

/-- A build of two files with the same marked class, which only their extensions tell apart. -/
def twinBuild : BuildCall :=
  ⟨holding [("/p/a.ts", markedSource), ("/p/a.js", markedSource)], [],
    { included := ["*.ts", "*.js"] }⟩

def twins : List SourceFile :=
  [⟨"/p/a.js", "a.js", .javaScript⟩, ⟨"/p/a.ts", "a.ts", .typeScript⟩]

end Sample

namespace Project

open Sample

/-- Two classes of one name in two files. -/
theorem registry_complete_pair :
    pair.flatMap (SourceFile.identities (project.context pairBuild) pairBuild.before) =
      [.forPath "a.ts" "A", .forPath "b.ts" "A"] ∧
    (project.run pairBuild).result = .ok ⟨2, 2, 0, 0, 0, 2, 0, some manifestPath⟩ ∧
    ∃ text registry,
      (project.run pairBuild).fs.readText? project.directory manifestPath = some text ∧
      Registry.empty.loadManifest manifestPath (some text) = .ok (registry, 2) ∧
      registry.size = 2 := by
  have identities :
      pair.flatMap (SourceFile.identities (project.context pairBuild) pairBuild.before) =
        [.forPath "a.ts" "A", .forPath "b.ts" "A"] := by decide +kernel
  have isFound : project.sources pairBuild = .ok pair :=
    sources_of_sorted (by decide +kernel) (by decide +kernel)
  have apart : ∀ location ∈ project.inputPlaces pairBuild,
      location ∉ project.outputPlaces pairBuild := by
    rw [inputPlaces, outputPlaces, listed_eq isFound]
    decide +kernel
  have forgotten : ∀ file ∈ pair,
      file.RepositoriesTruthful (project.context pairBuild) pairBuild.before := by
    intro file _ entry output remembered
    rw [remembered?_of_absent (by decide +kernel)] at remembered
    cases remembered
  have distinct : (pair.flatMap
      (SourceFile.identities (project.context pairBuild) pairBuild.before)).Nodup := by
    rw [identities]
    decide +kernel
  have succeeded : (project.run pairBuild).result =
      .ok ⟨2, 2, 0, 0, 0, 2, 0, some manifestPath⟩ := by
    rw [(run_of_loaded isFound rfl).2]
    decide +kernel
  have named : pairBuild.config.manifestPath? project.path = some manifestPath := by
    decide +kernel
  obtain ⟨text, registry, read, loads, size, _⟩ := registry_complete (by decide +kernel)
    isFound apart forgotten distinct succeeded named
  exact ⟨identities, succeeded, text, registry, read, loads, size⟩

/-- No file declares two classes of one name, but a class of one file displaces that of another. -/
theorem registry_incomplete_twins :
    ∃ found, project.sources twinBuild = .ok found ∧
      (∀ file ∈ found,
        (file.identities (project.context twinBuild) twinBuild.before).Nodup) ∧
      (project.run twinBuild).result = .ok ⟨2, 2, 0, 0, 0, 2, 0, some manifestPath⟩ ∧
      ∃ text registry,
        (project.run twinBuild).fs.readText? project.directory manifestPath = some text ∧
        Registry.empty.loadManifest manifestPath (some text) = .ok (registry, 2) ∧
        registry.size = 1 := by
  have isFound : project.sources twinBuild = .ok twins :=
    sources_of_sorted (by decide +kernel) (by decide +kernel)
  have succeeded : (project.run twinBuild).result =
      .ok ⟨2, 2, 0, 0, 0, 2, 0, some manifestPath⟩ := by
    rw [(run_of_loaded isFound rfl).2]
    decide +kernel
  have named : twinBuild.config.manifestPath? project.path = some manifestPath := by
    decide +kernel
  have repositories : (Build.repositories (project.outcomes twinBuild twins)).length = 2 := by
    decide +kernel
  have read := (concludes_run isFound).read?_manifest succeeded named
  have loads := Registry.loadManifest_render .empty manifestPath
    (Build.repositories (project.outcomes twinBuild twins))
  rw [repositories] at loads
  refine ⟨twins, isFound, by decide +kernel, succeeded, _, _,
    FileSystem.readText?_eq_some read, loads, ?_⟩
  decide +kernel

end Project

end SourceQuote

import SourceQuote.Command.Run
import SourceQuote.Proofs.FileSystem.Directories
import SourceQuote.Proofs.Project.Footprint
import Mathlib.Data.Set.List

/-!
Contract: the ways to the outputs of a build.

Owns: the directories above an output; when the files of a build keep out of each other's way, and
that those which a scan lists do if the way from the root to the project does not go up; and that
it never does in a build from the command line.

An output is in nobody's way: where a file would have to make a directory of the place of another
file's output, that file itself has to make one of it first, and so never writes there.
-/

namespace SourceQuote

open SourceQuote.Text
open SourceQuote.FileSystem
open SourceQuote.Path (Component ProperName)

/-- What keeps the files of a build out of each other's way, whatever the order of their steps:
besides what `Separates` asks for, their outputs start from directories, no output stands on the
way to another unless it stands on its own way, and what is known to the cache has its output in
directories. -/
structure BuildContext.Independent (context : BuildContext) (fs : FileSystem)
    (sources : List SourceFile) : Prop where
  separates : context.Separates fs sources
  grounded : ∀ file ∈ sources, ∀ {output}, file.output? context = some output →
    fs.Grounded (origin context.directory output).1
  crossing : ∀ file ∈ sources, ∀ other ∈ sources, ∀ {output otherOutput},
    file.output? context = some output → other.output? context = some otherOutput →
    place context.directory otherOutput ∈ stations context.directory (Path.parent output) →
    place context.directory otherOutput ∈ stations context.directory (Path.parent otherOutput)
  remembered : ∀ file ∈ sources, ∀ {output entry content},
    file.output? context = some output → file.remembered? context fs = some entry →
    fs.content? (place context.directory output) = some content →
    ∀ station ∈ stations context.directory (Path.parent output), fs.isDirectory station = true

theorem FileSystem.components_absolutePath {location : Location}
    (proper : ∀ name ∈ location, ProperName name) :
    Path.components (absolutePath location) =
      Component.root :: location.map Component.normal := by
  have joined : absolutePath location = Path.join "/" ("/".intercalate location) := by
    rw [Path.join, Path.isAbsolute_names proper]
    rfl
  by_cases top : location = []
  · subst top
    rfl
  · rw [joined, Path.components_join_names (by decide) top proper]
    rfl

namespace Project

variable {project : Project} {call : BuildCall} {found : List SourceFile}

/-- Whether the root leads to the files of a project without going up: no component of the
project's path that comes behind the root is `..`. Where one is, the outputs of all files have to
pass it, and whether an output that the cache remembers can be reached depends on whether another
file has made the directories on that way. -/
def IsDirect (project : Project) (call : BuildCall) : Prop :=
  Path.components (call.config.rootPath project.path) <+: Path.components project.path →
    Component.parent ∉ (Path.components project.path).drop
      (Path.components (call.config.rootPath project.path)).length

instance (project : Project) (call : BuildCall) : Decidable (project.IsDirect call) :=
  inferInstanceAs (Decidable (_ → _))

/-- A project that is given by the names from the top is built without going up. -/
theorem isDirect_of_absolutePath {location : Location}
    (proper : ∀ name ∈ location, ProperName name) (isPath : project.path = absolutePath location) :
    project.IsDirect call := by
  intro _ up
  have isComponent := List.mem_of_mem_drop up
  rw [isPath, FileSystem.components_absolutePath proper] at isComponent
  simp at isComponent

/-! ## The names below the root -/

/-- The names that lead to a listed file from the root, and to its output from the output
directory. -/
structure Leads (project : Project) (call : BuildCall) (file : SourceFile) (within : String)
    (names tail : List String) : Prop where
  stands : file.Stands call.before project.directory project.path names
  relative : Path.isAbsolute within = false
  named : (pieces '/' within.toList).filterMap Component.ofPiece = tail.map Component.normal
  parts : Path.components project.path ++ names.map Component.normal =
    Path.components (call.config.rootPath project.path) ++ tail.map Component.normal

theorem exists_names_of_pieces {parts : List (List Char)}
    (descends : Component.parent ∉ parts.filterMap Component.ofPiece) :
    ∃ names : List String, names.map Component.normal = parts.filterMap Component.ofPiece := by
  change parts.filterMap Component.ofPiece ∈ Set.range (List.map Component.normal)
  rw [Set.range_list_map]
  intro component member
  obtain ⟨piece, _, isComponent⟩ := List.mem_filterMap.mp member
  unfold Component.ofPiece at isComponent
  split at isComponent
  · cases isComponent
  · split at isComponent
    · cases isComponent
      exact absurd member descends
    · exact ⟨_, Option.some.inj isComponent⟩

theorem exists_leads (direct : project.IsDirect call) {file : SourceFile} {names : List String}
    (stands : file.Stands call.before project.directory project.path names) {within : String}
    (below : Path.below? file.path (call.config.rootPath project.path) = some within) :
    ∃ tail, project.Leads call file within names tail := by
  have named := stands.project_ne_empty
  obtain ⟨relative, parts⟩ := Path.below?_eq_some (Path.join_ne_empty named) below
  rw [stands.path_eq, Path.components_join_names named stands.nonempty stands.proper] at parts
  have descends : Component.parent ∉ (pieces '/' within.toList).filterMap Component.ofPiece := by
    intro up
    rcases List.append_eq_append_iff.mp parts with ⟨front, _, split⟩ | ⟨between, above, split⟩
    · have isName : Component.parent ∈ names.map Component.normal :=
        split ▸ List.mem_append_right front up
      simp at isName
    · -- The root is above the project, and what comes between the two does not go up.
      have flat := direct ⟨between, above.symm⟩
      rw [above, Config.rootPath, List.drop_left] at flat
      rw [split] at up
      rcases List.mem_append.mp up with isBetween | isName
      · exact flat isBetween
      · simp at isName
  obtain ⟨tail, isTail⟩ := exists_names_of_pieces descends
  refine ⟨tail, stands, relative, isTail.symm, ?_⟩
  rw [isTail]
  exact parts

namespace Leads

variable {file other : SourceFile} {within otherWithin : String}
  {names tail otherNames otherTail : List String}

theorem place_output (leads : project.Leads call file within names tail) :
    place project.directory (Path.join (call.config.outPath project.path) within) =
      place project.directory (call.config.outPath project.path) ++ tail := by
  rw [place_join _ leads.relative, foldl_step_eq_foldl_walk, leads.named, foldl_walk_names]

/-- A file below another would make that one a directory. -/
theorem eq_of_tail_append (leads : project.Leads call file within names tail)
    (otherLeads : project.Leads call other otherWithin otherNames otherTail)
    (wellFormed : call.before.WellFormed) {more : List String}
    (longer : otherTail = tail ++ more) : more = [] ∧ file = other := by
  have parts := otherLeads.parts
  rw [longer, List.map_append, ← List.append_assoc, ← leads.parts, List.append_assoc,
    List.append_cancel_left_eq, ← List.map_append] at parts
  have sameNames : otherNames = names ++ more :=
    List.map_injective_iff.mpr (fun _ _ equal => Component.normal.inj equal) parts
  have nothing : more = [] := by
    by_contra below
    obtain ⟨content, holds⟩ := otherLeads.stands.holds
    obtain ⟨own, ownHolds⟩ := leads.stands.holds
    rw [sameNames, ← List.append_assoc, content?_eq_some_iff] at holds
    have isDirectory := wellFormed.isDirectory_front holds below
    rw [isDirectory_eq_true_iff, content?_eq_some_iff.mp ownHolds] at isDirectory
    cases isDirectory
  rw [nothing, List.append_nil] at sameNames
  subst sameNames
  exact ⟨nothing, Option.some.inj (leads.stands.named.symm.trans otherLeads.stands.named)⟩

theorem out_ne_empty (leads : project.Leads call file within names tail) :
    call.config.outPath project.path ≠ "" :=
  Path.join_ne_empty leads.stands.project_ne_empty

/-- The directories above the output of a file that is not the root itself. -/
theorem exists_stations (leads : project.Leads call file within names tail) (below : tail ≠ []) :
    ∃ between : List (List Char),
      between.filterMap Component.ofPiece = tail.dropLast.map Component.normal ∧
      stations project.directory
          (Path.parent (Path.join (call.config.outPath project.path) within)) =
        stations project.directory (call.config.outPath project.path) ++
          stationsFrom (place project.directory (call.config.outPath project.path)) between := by
  have named := leads.named
  rw [← List.dropLast_concat_getLast below] at named
  exact exists_stations_parent project.directory leads.relative leads.out_ne_empty named

/-- The output of a file stands on the way to another only if it stands on its own way. -/
theorem crossing (leads : project.Leads call file within names tail)
    (otherLeads : project.Leads call other otherWithin otherNames otherTail)
    (wellFormed : call.before.WellFormed)
    (differ : file ≠ other)
    (crosses : place project.directory (Path.join (call.config.outPath project.path) otherWithin) ∈
      stations project.directory
        (Path.parent (Path.join (call.config.outPath project.path) within))) :
    place project.directory (Path.join (call.config.outPath project.path) otherWithin) ∈
      stations project.directory
        (Path.parent (Path.join (call.config.outPath project.path) otherWithin)) := by
  have below : tail ≠ [] := by
    rintro rfl
    exact differ (leads.eq_of_tail_append otherLeads wellFormed (List.nil_append _).symm).2
  have otherBelow : otherTail ≠ [] := by
    rintro rfl
    exact differ (otherLeads.eq_of_tail_append leads wellFormed (List.nil_append _).symm).2.symm
  obtain ⟨between, named, way⟩ := leads.exists_stations below
  obtain ⟨_, _, otherWay⟩ := otherLeads.exists_stations otherBelow
  rw [otherWay]
  rw [way] at crosses
  rcases List.mem_append.mp crosses with shared | own
  · exact List.mem_append_left _ shared
  · obtain ⟨front, back, split, same⟩ := exists_of_mem_stationsFrom named own
    rw [otherLeads.place_output, List.append_cancel_left_eq] at same
    have longer : tail = otherTail ++ (back ++ [tail.getLast below]) := by
      rw [same, ← List.append_assoc, ← split, List.dropLast_concat_getLast below]
    have nothing := (otherLeads.eq_of_tail_append leads wellFormed longer).1
    simp at nothing

/-- Where the cache was read and the output of a file stands, the directories above the output
do. -/
theorem isDirectory_above (leads : project.Leads call file within names tail)
    (wellFormed : call.before.WellFormed) {bytes content : ByteArray}
    (read : call.before.read? project.directory (project.cachePath call) = some bytes)
    (holds : call.before.content? (place project.directory
      (Path.join (call.config.outPath project.path) within)) = some content) :
    ∀ station ∈ stations project.directory
        (Path.parent (Path.join (call.config.outPath project.path) within)),
      call.before.isDirectory station = true := by
  obtain ⟨isDirectory, onWay⟩ := isDirectory_of_read?_join (by decide) leads.out_ne_empty read
  rw [leads.place_output, content?_eq_some_iff] at holds
  have below : tail ≠ [] := by
    rintro rfl
    rw [List.append_nil, isDirectory_eq_true_iff.mp isDirectory] at holds
    cases holds
  obtain ⟨between, named, way⟩ := leads.exists_stations below
  rw [way]
  intro station member
  rcases List.mem_append.mp member with shared | own
  · exact onWay station shared
  · obtain ⟨front, back, split, rfl⟩ := exists_of_mem_stationsFrom named own
    rw [← List.dropLast_concat_getLast below, split, List.append_assoc, ← List.append_assoc]
      at holds
    exact wellFormed.isDirectory_front holds (by simp)

theorem grounded (leads : project.Leads call file within names tail)
    (wellFormed : call.before.WellFormed) :
    call.before.Grounded (origin project.directory
      (Path.join (call.config.outPath project.path) within)).1 := by
  rw [origin_start_join leads.relative leads.out_ne_empty, origin]
  split
  · exact wellFormed.grounded (isDirectory_top _)
  · next relative =>
      -- Both paths are relative then, and the project was reached from where they start.
      have outRelative : Path.isAbsolute call.config.outDir = false := by
        rw [Bool.eq_false_iff]
        intro absolute
        rw [Config.outPath, Path.join, if_pos absolute] at relative
        exact relative absolute
      rw [Config.outPath, Path.isAbsolute_join outRelative leads.stands.project_ne_empty]
        at relative
      have reached := leads.stands.reaches_project
      obtain ⟨first, rest, cut⟩ :=
        List.exists_cons_of_ne_nil (pieces_ne_nil '/' project.path.toList)
      rw [Reaches, origin, if_neg relative, cut] at reached
      exact wellFormed.grounded (isDirectory_of_follow_cons reached)

end Leads

/-- The files that a scan lists keep out of each other's way. -/
theorem independent (wellFormed : call.before.WellFormed)
    (isFound : project.sources call = .ok found) (direct : project.IsDirect call)
    (apart : ∀ location ∈ project.inputPlaces call, location ∉ project.outputPlaces call) :
    (project.context call).Independent call.before found := by
  have leads : ∀ file ∈ found, ∀ {output}, file.output? (project.context call) = some output →
      ∃ within names tail, output = Path.join (call.config.outPath project.path) within ∧
        project.Leads call file within names tail := by
    intro file member output isOutput
    obtain ⟨names, stands⟩ := exists_stands wellFormed isFound member
    obtain ⟨within, below, rfl⟩ := Option.map_eq_some_iff.mp isOutput
    obtain ⟨tail, isTail⟩ := exists_leads direct stands below
    exact ⟨within, names, tail, rfl, isTail⟩
  refine ⟨separates_of_apart wellFormed isFound apart, ?_, ?_, ?_⟩
  · intro file member output isOutput
    obtain ⟨within, names, tail, rfl, isTail⟩ := leads file member isOutput
    exact isTail.grounded wellFormed
  · intro file member other otherMember output otherOutput isOutput isOther crosses
    by_cases same : file = other
    · subst same
      rwa [← Option.some.inj (isOutput.symm.trans isOther)] at crosses ⊢
    · obtain ⟨within, names, tail, rfl, isTail⟩ := leads file member isOutput
      obtain ⟨otherWithin, otherNames, otherTail, rfl, isOtherTail⟩ :=
        leads other otherMember isOther
      exact isTail.crossing isOtherTail wellFormed same crosses
  · intro file member output entry content isOutput remembered holds
    obtain ⟨within, names, tail, rfl, isTail⟩ := leads file member isOutput
    obtain ⟨_, _, isEntry, _⟩ := loaded_of_remembered remembered
    obtain ⟨text, readText, _⟩ := BuildCache.stored?_of_load isEntry
    obtain ⟨bytes, read, _⟩ := Option.bind_eq_some_iff.mp readText
    exact isTail.isDirectory_above wellFormed read holds

end Project

/-- A build that is asked for on the command line is a build of the directory that the given path
leads to, under its names from the top, so that the way to its outputs does not go up. -/
theorem Workspace.build_eq_run {workspace : Workspace} {request : BuildRequest}
    {location : Location} {config : Config} (wellFormed : workspace.fs.WellFormed)
    (existing : workspace.fs.existing? workspace.directory request.project = some location)
    (configured : workspace.config request (absolutePath location) = .ok config) :
    let project : Project := ⟨workspace.parser, workspace.directory, absolutePath location⟩
    let call : BuildCall := ⟨workspace.fs, workspace.environment, request.override config⟩
    project.IsDirect call ∧ (workspace.build request).fs = (project.run call).fs ∧
      (workspace.build request).result =
        (project.run call).result.map fun report => .report report request.asJson := by
  intro project call
  obtain ⟨entry, stands⟩ := Option.isSome_iff_exists.mp (Option.filter_eq_some_iff.mp existing).2
  have direct : project.IsDirect call :=
    Project.isDirect_of_absolutePath (wellFormed.proper location entry stands) rfl
  refine ⟨direct, ?_, ?_⟩
  · simp only [Workspace.build, existing, configured, Project.run, project, call]
  · simp only [Workspace.build, existing, configured, Project.run, project, call]

end SourceQuote

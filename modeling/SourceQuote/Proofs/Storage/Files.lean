import SourceQuote.Proofs.Containers.Sorting
import SourceQuote.Proofs.FileSystem.Writes
import SourceQuote.Proofs.Storage.RoundTrip
import SourceQuote.Registry

/-!
Contract: documents that are saved to a file and read from it again.

Owns: the caches that a program can come to hold, that these and all manifests are read back as
they were saved, and that a registry which loads a saved manifest is the one that had its
repositories registered directly.

## Which repository wins

A manifest lists its repositories by class. Sorting is stable, so of several repositories of one
class the last one before sorting is still the last one after it, and the last one is what a
registry keeps.
-/

namespace SourceQuote

/-! ## Reading back -/

namespace BuildCache

/-- The caches that come from the empty one for some options by recording and forgetting files. -/
inductive Reachable (options : PassOptions) : BuildCache → Prop
  | empty : Reachable options (empty options)
  | update {cache : BuildCache} (path contentHash : String) (repositories : List Repository) :
      Reachable options cache → Reachable options (cache.update path contentHash repositories)
  | remove {cache : BuildCache} (path : String) :
      Reachable options cache → Reachable options (cache.remove path)
  | retain {cache : BuildCache} (live : List String) :
      Reachable options cache → Reachable options (cache.retain live)

theorem Reachable.accepted {options : PassOptions} {cache : BuildCache}
    (reachable : Reachable options cache) :
    cache.version = currentVersion ∧ cache.options = fingerprint options := by
  induction reachable with
  | empty => exact ⟨rfl, rfl⟩
  | update path contentHash repositories _ inductionHypothesis => exact inductionHypothesis
  | remove path _ inductionHypothesis => exact inductionHypothesis
  | retain live _ inductionHypothesis => exact inductionHypothesis

end BuildCache

namespace FileSystem

theorem readText?_save {fs : FileSystem} {directory : Location} {path text : String}
    (succeeded : (fs.save directory path text.toByteArray).succeeded = true) :
    (fs.save directory path text.toByteArray).fs.readText? directory path = some text :=
  readText?_eq_some (read?_save succeeded)

/-- Stored documents read back. The text of every manifest of repositories, and of every cache
that a program can come to hold, is JSON for the document, and the document is what is read from
the file that the text was saved to. -/
theorem documents_readBack (fs : FileSystem) (directory : Location) (path : String) :
    (∀ repositories,
      let manifest := Manifest.ofRepositories repositories
      let saved := fs.save directory path manifest.render.toByteArray
      Json.parse? manifest.render = some manifest.toJson ∧
      Manifest.ofJson? manifest.toJson = some manifest ∧
      (saved.succeeded = true → ∃ text, saved.fs.readText? directory path = some text ∧
        Manifest.parse path text = .ok manifest)) ∧
    ∀ options cache, BuildCache.Reachable options cache →
      let saved := fs.save directory path cache.render.toByteArray
      Json.parse? cache.render = some cache.toJson ∧
      BuildCache.ofJson? cache.toJson = some cache ∧
      (saved.succeeded = true →
        BuildCache.load path (saved.fs.readText? directory path) options = (cache, [])) := by
  constructor
  · intro repositories manifest saved
    have current : Manifest.currentVersion < Manifest.versionBound := by decide
    refine ⟨Json.parse?_pretty manifest.plain_toJson, Manifest.ofJson?_toJson current, ?_⟩
    intro succeeded
    exact ⟨_, readText?_save succeeded, Manifest.parse_render path rfl⟩
  · intro options cache reachable saved
    obtain ⟨version, accepted⟩ := reachable.accepted
    have current : cache.version < BuildCache.versionBound := by
      rw [version]
      decide
    refine ⟨Json.parse?_compact cache.plain_toJson, BuildCache.ofJson?_toJson current, ?_⟩
    intro succeeded
    rw [readText?_save succeeded]
    exact BuildCache.load_render path version accepted

end FileSystem

namespace Sample

/-- A class with quotes, backslashes, control characters and a character outside of the basic
plane in its texts. -/
def twoMethods : Repository :=
  ((Repository.empty ⟨"a.\"b\"", "C\\"⟩).insert "\x00\n"
      ⟨⟨["p", "q"], [.literal "\x1f\u2028", .identifierRef "q", .literal ""]⟩, ⟨[], []⟩⟩).insert
    "" ⟨⟨["𝒳"], [.identifierRef "𝒳"]⟩, ⟨["𝒳"], [.literal "𝒳"]⟩⟩

end Sample

theorem FileSystem.documents_readBack_twoMethods :
    let manifest := Manifest.ofRepositories [Sample.twoMethods]
    let cache := (BuildCache.empty {}).update "a.ts" "" [Sample.twoMethods]
    let saved := FileSystem.empty.save [] "/quotations.json" manifest.render.toByteArray
    let stored := FileSystem.empty.save [] "/cache.json" cache.render.toByteArray
    (∃ text, saved.fs.readText? [] "/quotations.json" = some text ∧
      Manifest.parse "/quotations.json" text = .ok manifest) ∧
    BuildCache.load "/cache.json" (stored.fs.readText? [] "/cache.json") {} = (cache, []) := by
  intro manifest cache saved stored
  have succeeded : saved.succeeded = true := rfl
  have storedSucceeded : stored.succeeded = true := rfl
  have reachable : BuildCache.Reachable {} cache := .update _ _ _ .empty
  obtain ⟨manifests, _⟩ := documents_readBack .empty [] "/quotations.json"
  obtain ⟨_, caches⟩ := documents_readBack .empty [] "/cache.json"
  obtain ⟨_, _, readManifest⟩ := manifests [Sample.twoMethods]
  obtain ⟨_, _, readCache⟩ := caches {} cache reachable
  exact ⟨readManifest succeeded, readCache storedSucceeded⟩

/-! ## Loading into a registry -/

theorem Manifest.filter_mergeSort_classId (repositories : List Repository) (classId : ClassId) :
    (repositories.mergeSort Manifest.le).filter (fun repository => repository.classId = classId) =
      repositories.filter fun repository => repository.classId = classId := by
  rw [@filter_mergeSort _ Manifest.le ascends_trans ascends_total]
  refine List.mergeSort_of_pairwise (List.pairwise_of_forall_mem_list ?_)
  intro first isFirst second isSecond
  have firstClass := of_decide_eq_true (List.mem_filter.mp isFirst).2
  have secondClass := of_decide_eq_true (List.mem_filter.mp isSecond).2
  rw [Manifest.le, firstClass, secondClass, Std.ReflOrd.compare_self]
  rfl

namespace Registry

/-- A registry keeps the last repository of a class, and what it had if there is none. -/
theorem get?_registerAll_eq (registry : Registry) (repositories : List Repository)
    (classId : ClassId) :
    (registry.registerAll repositories).repositories.get? classId =
      (repositories.filter fun repository => repository.classId = classId).getLast?.or
        (registry.repositories.get? classId) := by
  induction repositories generalizing registry with
  | nil => rfl
  | cons repository rest inductionHypothesis =>
      have registered := inductionHypothesis (registry.register repository.classId repository)
      rw [register, SortedMap.get?_insert] at registered
      rw [registerAll, List.foldl_cons]
      refine registered.trans ?_
      by_cases same : repository.classId = classId
      · rw [if_pos same.symm, List.filter_cons_of_pos (by simpa using same), List.getLast?_cons]
        cases (rest.filter fun repository => repository.classId = classId).getLast? <;> rfl
      · rw [if_neg (Ne.symm same), List.filter_cons_of_neg (by simpa using same)]

theorem registerAll_mergeSort (registry : Registry) (repositories : List Repository) :
    registry.registerAll (repositories.mergeSort Manifest.le) =
      registry.registerAll repositories := by
  have same : (registry.registerAll (repositories.mergeSort Manifest.le)).repositories =
      (registry.registerAll repositories).repositories := by
    refine SortedMap.eq_of_get?_eq fun classId => ?_
    rw [get?_registerAll_eq, get?_registerAll_eq, Manifest.filter_mergeSort_classId]
  exact congrArg Registry.mk same

theorem loadManifest_render (registry : Registry) (path : String)
    (repositories : List Repository) :
    registry.loadManifest path (some (Manifest.ofRepositories repositories).render) =
      .ok (registry.registerAll repositories, repositories.length) := by
  rw [loadManifest, Manifest.parse_render path rfl, ← registerAll_mergeSort,
    ← (List.mergeSort_perm repositories Manifest.le).length_eq]
  rfl

/-- Publishing through a manifest is registering directly: a registry that loads the file of a
manifest counts its repositories and comes to what registering them in their own order makes of
it. -/
theorem loadManifest_saved (registry : Registry) (repositories : List Repository)
    (fs : FileSystem) (directory : Location) (path : String)
    (succeeded : (fs.save directory path
      (Manifest.ofRepositories repositories).render.toByteArray).succeeded = true) :
    registry.loadManifest path ((fs.save directory path
      (Manifest.ofRepositories repositories).render.toByteArray).fs.readText? directory path) =
      .ok (registry.registerAll repositories, repositories.length) := by
  rw [FileSystem.readText?_save succeeded, loadManifest_render]

theorem loadManifest_saved_same :
    let repositories := [Sample.twoMethods, Repository.empty Sample.twoMethods.classId]
    let saved := FileSystem.empty.save [] "/quotations.json"
      (Manifest.ofRepositories repositories).render.toByteArray
    saved.succeeded = true ∧
      empty.loadManifest "/quotations.json" (saved.fs.readText? [] "/quotations.json") =
        .ok (empty.registerAll repositories, 2) := by
  intro repositories saved
  have succeeded : saved.succeeded = true := rfl
  exact ⟨succeeded, loadManifest_saved empty repositories .empty [] "/quotations.json" succeeded⟩

end Registry

end SourceQuote

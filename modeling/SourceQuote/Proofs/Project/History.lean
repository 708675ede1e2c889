import SourceQuote.Proofs.Project.Conclusion

/-!
Contract: builds of one project, one after the other.

Owns: what may happen between two builds, sequences of builds, and that the cache a build begins
with is the one that the build before it left.

Between two builds anything may change but the files of the output directory.
-/

namespace SourceQuote.Project

open SourceQuote.FileSystem (isInside place)

variable {project : Project}

def outPlace (project : Project) (call : BuildCall) : Location :=
  place project.directory (call.config.outPath project.path)

/-- What lies between a build and the next one: the output directory is the same, and nothing
writes to it. -/
structure Follows (project : Project) (earlier later : BuildCall) : Prop where
  sameOut : later.config.outDir = earlier.config.outDir
  untouched : ∀ location, isInside (project.outPlace earlier) location = true →
    later.before.content? location = (project.run earlier).fs.content? location

/-- Builds, the latest first. Before the first of them the output directory holds no file. -/
inductive History (project : Project) : List BuildCall → Prop
  | first {call : BuildCall} (wellFormed : call.before.WellFormed)
      (empty : ∀ location, isInside (project.outPlace call) location = true →
        call.before.content? location = none) :
      History project [call]
  | next {call earlier : BuildCall} {rest : List BuildCall}
      (history : History project (earlier :: rest)) (wellFormed : call.before.WellFormed)
      (follows : project.Follows earlier call) :
      History project (call :: earlier :: rest)

theorem isInside_cachePlace (project : Project) (call : BuildCall) :
    isInside (project.outPlace call) (project.cachePlace call) = true := by
  exact FileSystem.isInside_iff.mpr
    ⟨[BuildCache.fileName], List.cons_ne_nil _ _, cachePlace_eq project call⟩

theorem Follows.outPath_eq {earlier later : BuildCall} (follows : project.Follows earlier later) :
    later.config.outPath project.path = earlier.config.outPath project.path := by
  rw [Config.outPath, follows.sameOut, Config.outPath]

theorem Follows.cacheAt?_eq {earlier later : BuildCall}
    (follows : project.Follows earlier later) :
    later.before.cacheAt? (project.cachePlace later) =
      (project.run earlier).fs.cacheAt? (project.cachePlace earlier) := by
  have samePlace : project.cachePlace later = project.cachePlace earlier := by
    rw [cachePlace, cachePath, follows.outPath_eq, cachePlace, cachePath]
  rw [samePlace, FileSystem.cacheAt?, FileSystem.cacheAt?,
    follows.untouched _ (isInside_cachePlace project earlier)]

namespace History

variable {call : BuildCall} {earlier : List BuildCall}

theorem wellFormed {calls : List BuildCall} (history : project.History calls) :
    ∀ call ∈ calls, call.before.WellFormed := by
  induction history with
  | first wellFormed _ => simpa using wellFormed
  | next _ wellFormed _ inductionHypothesis =>
      intro call member
      rcases List.mem_cons.mp member with rfl | isEarlier
      · exact wellFormed
      · exact inductionHypothesis call isEarlier

/-- What holds of every cache that a build can leave holds of the cache that a later build
begins with. `Holds` may speak of all builds up to the one that left the cache. -/
theorem cache_induction {Holds : List BuildCall → BuildCache → Prop}
    (grow : ∀ {call earlier cache}, Holds earlier cache → Holds (call :: earlier) cache)
    (step : ∀ {call earlier found}, project.History (call :: earlier) →
      project.sources call = .ok found →
      (∀ cache, call.before.cacheAt? (project.cachePlace call) = some cache →
        Holds earlier cache) →
      Holds (call :: earlier)
        (Build.updatedCache (project.loaded call) (project.outcomes call found)))
    (history : project.History (call :: earlier)) {cache : BuildCache}
    (stands : call.before.cacheAt? (project.cachePlace call) = some cache) :
    Holds earlier cache := by
  induction earlier generalizing call cache with
  | nil =>
      cases history with
      | first _ empty =>
          have absent := empty _ (isInside_cachePlace project call)
          rw [FileSystem.cacheAt?, absent] at stands
          cases stands
  | cons previous rest inductionHypothesis =>
      cases history with
      | next history _ follows =>
          rw [follows.cacheAt?_eq] at stands
          cases isFound : project.sources previous with
          | error error =>
              rw [run_of_sources_error isFound] at stands
              exact grow (inductionHypothesis history stands)
          | ok found =>
              rcases cacheAt?_run isFound with gone | updated | ⟨kept, _⟩
              · rw [gone] at stands
                cases stands
              · rw [updated] at stands
                cases stands
                exact step history isFound fun _ => inductionHypothesis history
              · rw [kept, cacheAt?_built (history.wellFormed _ List.mem_cons_self) isFound] at stands
                exact grow (inductionHypothesis history stands)

end History

end SourceQuote.Project

import SourceQuote.Proofs.Project.Footprint
import SourceQuote.Proofs.Project.History
import SourceQuote.Proofs.Scan.Locality

/-!
Contract: a build that uses the cache does what a build from nothing does.

Owns: sequences of builds that nothing disturbs, what the cache and the outputs are then known to
hold, and the comparison with a clean build.

Every entry of the cache goes back to a build of the sequence: it holds the digest of what that
build read and the repositories that the pass gave, under the options of the cache, and the
output, if it still stands, holds what the pass gave. A later build uses an entry only if digest
and options are its own, so without collisions it would read and compute the same.
-/

namespace SourceQuote

open SourceQuote.Text
open SourceQuote.FileSystem (Keeps isInside place)

/-! ## Options -/

theorem Text.not_mem_of_isIdentifier {text : String} (shape : isIdentifier text = true) :
    '\x00' ∉ text.toList := by
  have part : ∀ c, isIdentifierPart c = true → c ≠ '\x00' := by
    rintro c isPart rfl
    revert isPart
    decide
  unfold isIdentifier hasIdentifierShape at shape
  split at shape
  · cases shape
  · next first rest split =>
      rw [Bool.and_eq_true, List.all_eq_true] at shape
      rw [split, List.mem_cons, not_or]
      refine ⟨(part first ?_).symm, fun later => part _ (shape.2 _ later) rfl⟩
      rw [isIdentifierPart, shape.1]
      rfl

/-- Options that a build accepts are told apart by the texts of their fingerprints. -/
theorem PassOptions.eq_of_fingerprintText {options other : PassOptions}
    (valid : options.validate = .ok ()) (otherValid : other.validate = .ok ())
    (same : BuildCache.fingerprintText options = BuildCache.fingerprintText other) :
    options = other := by
  have marked : ∀ {options : PassOptions}, options.validate = .ok () →
      pieces '\x00' options.marker.toList = [options.marker.toList] := by
    intro options valid
    unfold validate at valid
    split at valid
    · next shape => exact pieces_of_not_mem (not_mem_of_isIdentifier shape)
    · cases valid
  have rest : ('\x00' :: options.marker.toList) ++ '\x00' :: options.registerCall.toList =
      ('\x00' :: other.marker.toList) ++ '\x00' :: other.registerCall.toList := by
    have texts := congrArg String.toList same
    simpa [BuildCache.fingerprintText] using texts
  have cut : options.marker.toList ++ '\x00' :: options.registerCall.toList =
      other.marker.toList ++ '\x00' :: other.registerCall.toList := by simpa using rest
  have parts := congrArg (pieces '\x00') cut
  rw [pieces_append_separator, pieces_append_separator, marked valid, marked otherValid,
    List.cons_append, List.cons_append] at parts
  have sameMarker : options.marker.toList = other.marker.toList := (List.cons.inj parts).1
  rw [sameMarker] at cut
  have sameCall : options.registerCall.toList = other.registerCall.toList := by simpa using cut
  cases options
  cases other
  rw [String.toList_inj] at sameMarker sameCall
  congr

namespace Project

variable {project : Project} {call : BuildCall} {earlier : List BuildCall}
  {found : List SourceFile}

/-! ## Builds that nothing disturbs -/

/-- Whether nothing changes the outputs of builds, the latest first, between one build and the
next. -/
def OutputsUnedited (project : Project) : List BuildCall → Prop
  | later :: earlier :: rest =>
      (∀ origin ∈ earlier :: rest, ∀ location ∈ project.outputPlaces origin,
        later.before.content? location = (project.run earlier).fs.content? location) ∧
      project.OutputsUnedited (earlier :: rest)
  | _ => True

/-- Builds, the latest first, that use the cache and the same directories. Only they write to the
output directory, all writes succeed, nothing that is written is a source, and nothing that is
digested collides. -/
structure Undisturbed (project : Project) (calls : List BuildCall) : Prop where
  history : project.History calls
  unedited : project.OutputsUnedited calls
  incremental : ∀ call ∈ calls, call.config.incremental = true
  sameRoot : ∀ call ∈ calls, ∀ other ∈ calls, call.config.rootDir = other.config.rootDir
  written : ∀ call ∈ calls, project.WritesSucceed call
  plain : ∀ call ∈ calls, call.before.PlainNames
  apart : ∀ call ∈ calls, ∀ other ∈ calls, ∀ location ∈ project.inputPlaces call,
    location ∉ project.writtenPlaces other
  manifests : ∀ call ∈ calls, ∀ location ∈ project.manifestPlace? call,
    location ∉ project.outputPlaces call
  contents : ∀ call ∈ calls, ∀ other ∈ calls, ∀ content ∈ project.contents call,
    ∀ otherContent ∈ project.contents other,
    Sha256.hexDigest content = Sha256.hexDigest otherContent → content = otherContent
  options : ∀ call ∈ calls, ∀ other ∈ calls,
    BuildCache.fingerprint call.config.passOptions =
      BuildCache.fingerprint other.config.passOptions →
    BuildCache.fingerprintText call.config.passOptions =
      BuildCache.fingerprintText other.config.passOptions

theorem History.sameOut {calls : List BuildCall} (history : project.History calls) :
    ∀ call ∈ calls, ∀ other ∈ calls, call.config.outDir = other.config.outDir := by
  induction history with
  | first _ _ =>
      intro call member other isOther
      rw [List.mem_singleton.mp member, List.mem_singleton.mp isOther]
  | next _ _ follows inductionHypothesis =>
      have last := inductionHypothesis _ List.mem_cons_self
      intro call member other isOther
      rcases List.mem_cons.mp member with rfl | isEarlier <;>
        rcases List.mem_cons.mp isOther with rfl | isOtherEarlier
      · rfl
      · rw [follows.sameOut, last other isOtherEarlier]
      · rw [follows.sameOut, last call isEarlier]
      · exact inductionHypothesis call isEarlier other isOtherEarlier

theorem Undisturbed.tail {previous : BuildCall} {rest : List BuildCall}
    (undisturbed : project.Undisturbed (call :: previous :: rest)) :
    project.Undisturbed (previous :: rest) ∧ project.Follows previous call := by
  obtain ⟨history, unedited, incremental, sameRoot, written, plain, apart, manifests, contents,
    options⟩ := undisturbed
  have older : ∀ {origin}, origin ∈ previous :: rest → origin ∈ call :: previous :: rest :=
    fun member => List.mem_cons_of_mem _ member
  cases history with
  | next history _ follows =>
      refine ⟨⟨history, unedited.2, ?_, ?_, ?_, ?_, ?_, ?_, ?_, ?_⟩, follows⟩
      · exact fun origin member => incremental origin (older member)
      · exact fun origin member other isOther => sameRoot origin (older member) other (older isOther)
      · exact fun origin member => written origin (older member)
      · exact fun origin member => plain origin (older member)
      · exact fun origin member other isOther => apart origin (older member) other (older isOther)
      · exact fun origin member => manifests origin (older member)
      · exact fun origin member other isOther => contents origin (older member) other (older isOther)
      · exact fun origin member other isOther => options origin (older member) other (older isOther)

/-! ## What the cache knows -/

/-- Whether a build, its file and what it read there account for an entry of a cache: digest,
options and repositories are those of the build, and the output, if it stands in `fs`, is. -/
structure Accounts (project : Project) (fs : FileSystem) (cache : BuildCache)
    (entry : CachedFile) (origin : BuildCall) (file : SourceFile) (transformed : Transformed) :
    Prop where
  listed : file ∈ project.listed origin
  options : cache.options = BuildCache.fingerprint origin.config.passOptions
  digest : ∃ content, origin.before.read? project.directory file.path = some content ∧
    entry.contentHash = Sha256.hexDigest content
  expected : file.expected (project.context origin) origin.before = .ok transformed
  repositories : entry.repositories = transformed.repositories
  output : ∀ output bytes, file.output? (project.context origin) = some output →
    fs.content? (place project.directory output) = some bytes →
    bytes = transformed.source.toByteArray

/-- Whether some builds account for every entry of a cache. -/
def Accounted (project : Project) (calls : List BuildCall) (fs : FileSystem)
    (cache : BuildCache) : Prop :=
  ∀ relative entry, cache.files.get? relative = some entry →
    ∃ origin ∈ calls, ∃ file transformed, file.relative = relative ∧
      project.Accounts fs cache entry origin file transformed

theorem Accounted.grow {fs : FileSystem} {cache : BuildCache}
    (accounted : project.Accounted earlier fs cache) (call : BuildCall) :
    project.Accounted (call :: earlier) fs cache := by
  intro relative entry known
  obtain ⟨origin, isOrigin, rest⟩ := accounted relative entry known
  exact ⟨origin, List.mem_cons_of_mem _ isOrigin, rest⟩

/-- Only the files at outputs matter for whether a cache is accounted for. -/
theorem Accounted.congr {fs later : FileSystem} {cache : BuildCache}
    (accounted : project.Accounted earlier fs cache)
    (same : ∀ origin ∈ earlier, ∀ location ∈ project.outputPlaces origin,
      later.content? location = fs.content? location) :
    project.Accounted earlier later cache := by
  intro relative entry known
  obtain ⟨origin, isOrigin, file, transformed, isFile, accounts⟩ := accounted relative entry known
  refine ⟨origin, isOrigin, file, transformed, isFile, { accounts with output := ?_ }⟩
  intro output bytes isOutput stands
  refine accounts.output output bytes isOutput ?_
  rw [← same origin isOrigin _ ?_, stands]
  refine List.mem_filterMap.mpr ⟨file, accounts.listed, ?_⟩
  rw [isOutput]
  rfl

/-- Whether every outcome of a build is what its file should come to, and every output stands
when the build ends. -/
structure Faithful (project : Project) (call : BuildCall) (found : List SourceFile) : Prop where
  reports : List.Forall₂
    (fun file outcome => outcome.Reports (project.context call) call.before file) found
    (project.outcomes call found)
  outputs : ∀ file ∈ found,
    file.OutputStands (project.context call) call.before (project.run call).fs

namespace Undisturbed

theorem validate_of_sources (isFound : project.sources call = .ok found) :
    call.config.passOptions.validate = .ok () := by
  have valid := (sources_eq_ok isFound).1
  unfold Config.validate at valid
  split at valid
  · cases valid
  · split at valid
    · cases valid
    · exact valid

variable (undisturbed : project.Undisturbed (call :: earlier))
include undisturbed

/-- What a build remembers of a file is what it would find out, if its cache is accounted for. -/
theorem remembered_true (isFound : project.sources call = .ok found)
    (accounted : project.Accounted earlier call.before (project.loaded call))
    {file : SourceFile} (member : file ∈ found) {entry : CachedFile}
    (remembered : file.remembered? (project.context call) call.before = some entry) :
    ∃ transformed, file.expected (project.context call) call.before = .ok transformed ∧
      entry.repositories = transformed.repositories ∧
      ∀ output bytes, file.output? (project.context call) = some output →
        call.before.content? (place project.directory output) = some bytes →
        bytes = transformed.source.toByteArray := by
  have isCall : call ∈ call :: earlier := List.mem_cons_self
  obtain ⟨content, read, isEntry, sameHash⟩ := loaded_of_remembered remembered
  obtain ⟨origin, isOrigin, other, transformed, sameRelative, accounts⟩ :=
    accounted _ _ isEntry
  have isEarlier : origin ∈ call :: earlier := List.mem_cons_of_mem _ isOrigin
  obtain ⟨originFound, isOriginFound, otherMember⟩ := sources_of_mem_listed accounts.listed
  -- The entry is about the same file,
  obtain ⟨names, stands⟩ := exists_stands (undisturbed.history.wellFormed call isCall) isFound member
  obtain ⟨otherNames, otherStands⟩ :=
    exists_stands (undisturbed.history.wellFormed origin isEarlier) isOriginFound otherMember
  obtain rfl := otherStands.eq_of_relative_eq stands (undisturbed.plain origin isEarlier)
    (undisturbed.plain call isCall) sameRelative
  -- about the same content,
  obtain ⟨originContent, originRead, digest⟩ := accounts.digest
  have sameContent : content = originContent := by
    refine undisturbed.contents call isCall origin isEarlier _ ?_ _ ?_ ?_
    · rw [Project.contents, listed_eq isFound]
      exact List.mem_filterMap.mpr ⟨_, member, read⟩
    · exact List.mem_filterMap.mpr ⟨_, accounts.listed, originRead⟩
    · rw [← digest, sameHash]
  -- and made with the same options.
  have sameOptions : call.config.passOptions = origin.config.passOptions := by
    refine PassOptions.eq_of_fingerprintText (validate_of_sources isFound)
      (validate_of_sources isOriginFound) (undisturbed.options call isCall origin isEarlier ?_)
    rw [← accounts.options, (loaded_options project call).2]
  have sameContext : project.context call = _ :=
    context_eq (undisturbed.sameRoot call isCall origin isEarlier)
      (undisturbed.history.sameOut call isCall origin isEarlier) sameOptions
  refine ⟨transformed, ?_, accounts.repositories, ?_⟩
  · rw [sameContext, SourceFile.expected_withCache, ← accounts.expected]
    refine SourceFile.expected_congr ?_
    rw [context_directory, originRead, ← sameContent]
    exact read
  · intro output bytes isOutput
    rw [sameContext, SourceFile.output?_withCache] at isOutput
    exact accounts.output output bytes isOutput

/-- A build is faithful if its cache is accounted for. -/
theorem faithful_of_accounted (isFound : project.sources call = .ok found)
    (accounted : project.Accounted earlier call.before (project.loaded call)) :
    project.Faithful call found := by
  have written := (undisturbed.written call List.mem_cons_self).2
  rw [listed_eq isFound] at written
  have isCall : call ∈ call :: earlier := List.mem_cons_self
  have wellFormed := undisturbed.history.wellFormed call isCall
  have separates := separates_of_apart wellFormed isFound fun location isInput isOutput =>
    undisturbed.apart call isCall call isCall location isInput (List.mem_append_left _ isOutput)
  constructor
  · refine Build.files_report separates (fun file member entry output remembered _ => ?_) written
    obtain ⟨transformed, isExpected, repositories, _⟩ :=
      undisturbed.remembered_true isFound accounted member remembered
    exact ⟨transformed, isExpected, repositories⟩
  · have stands := Build.files_output separates (fun file member => ?_) written
    · intro file member output transformed isOutput isExpected
      refine (keeps_run isFound).read? ?_ (stands file member output transformed isOutput isExpected)
      exact output_not_concluded wellFormed isFound (undisturbed.manifests call isCall)
        ⟨file, member, output, isOutput, rfl⟩
    · intro entry output transformed bytes remembered isOutput isExpected holds
      obtain ⟨result, isResult, _, outputTrue⟩ :=
        undisturbed.remembered_true isFound accounted member remembered
      rw [isExpected] at isResult
      cases isResult
      exact outputTrue output bytes isOutput holds

/-- One build: it accounts for the cache that it leaves. -/
theorem accounted_run (isFound : project.sources call = .ok found)
    (accounted : project.Accounted earlier call.before (project.loaded call)) :
    project.Accounted (call :: earlier) (project.run call).fs
      (Build.updatedCache (project.loaded call) (project.outcomes call found)) := by
  obtain ⟨reports, outputs⟩ := undisturbed.faithful_of_accounted isFound accounted
  intro relative entry known
  obtain ⟨outcome, isOutcome, rfl, sameHash, status, built⟩ := Build.get?_updatedCache known
  obtain ⟨file, member, report⟩ := exists_left_of_mem reports isOutcome
  rcases report.cases with ⟨error, failed, _⟩ | ⟨_, transformed, succeeded, isExpected⟩
  · rw [built] at failed
    cases failed
  · have repositories : entry.repositories = transformed.repositories := by
      rw [built] at succeeded
      exact (Prod.mk.inj (Except.ok.inj succeeded)).2
    refine ⟨call, List.mem_cons_self, file, transformed, report.relative.symm, ?_⟩
    refine ⟨by rwa [listed_eq isFound], ?_, ?_, isExpected, repositories, ?_⟩
    · rw [(Build.updatedCache_options _ _).2, (loaded_options project call).2]
    · obtain ⟨content, _, read, _⟩ := SourceFile.expected_eq_ok isExpected
      exact ⟨content, read, by rw [← sameHash, report.contentHash read]⟩
    · intro output bytes isOutput stands
      have isRead := outputs file member output transformed isOutput isExpected
      have holds := FileSystem.content?_of_read? isRead
      rw [context_directory, stands] at holds
      exact Option.some.inj holds

omit undisturbed in
/-- All builds: the cache that a build begins with is accounted for by the builds before. -/
theorem accounted (undisturbed : project.Undisturbed (call :: earlier)) {cache : BuildCache}
    (stands : call.before.cacheAt? (project.cachePlace call) = some cache) :
    project.Accounted earlier call.before cache := by
  -- By induction on the builds before; the last of them has left the cache, or the one that it
  -- began with if its configuration was refused.
  induction earlier generalizing call cache with
  | nil =>
      cases undisturbed.history with
      | first _ empty =>
          rw [FileSystem.cacheAt?, empty _ (isInside_cachePlace project call)] at stands
          cases stands
  | cons previous rest inductionHypothesis =>
      obtain ⟨undisturbedBefore, follows⟩ := undisturbed.tail
      rw [follows.cacheAt?_eq] at stands
      have left : project.Accounted (previous :: rest) (project.run previous).fs cache := by
        cases isFound : project.sources previous with
        | error error =>
            rw [run_of_sources_error isFound] at stands ⊢
            exact (inductionHypothesis undisturbedBefore stands).grow previous
        | ok found =>
            have incremental := undisturbedBefore.incremental previous List.mem_cons_self
            have wrote := (undisturbedBefore.written previous List.mem_cons_self).1
            have stored := ((concludes_run isFound).result_eq wrote).1
            rcases cacheAt?_run isFound with gone | updated | ⟨_, unstored⟩
            · rw [gone] at stands
              cases stands
            · rw [updated] at stands
              cases stands
              refine undisturbedBefore.accounted_run isFound ?_
              intro relative entry known
              exact inductionHypothesis undisturbedBefore (cacheAt?_of_loaded known) relative entry
                known
            · exact absurd ⟨incremental, stored⟩ unstored
      exact left.congr undisturbed.unedited.1

theorem faithful (isFound : project.sources call = .ok found) : project.Faithful call found :=
  undisturbed.faithful_of_accounted isFound fun relative entry known =>
    undisturbed.accounted (cacheAt?_of_loaded known) relative entry known

/-- Only the builds themselves have put files into the output directory. -/
theorem exists_writer {location : Location}
    (inside : isInside (project.outPlace call) location = true)
    {content : ByteArray} (stands : call.before.content? location = some content) :
    ∃ origin ∈ earlier, location ∈ project.writtenPlaces origin := by
  induction earlier generalizing call content with
  | nil =>
      cases undisturbed.history with
      | first _ empty =>
          rw [empty location inside] at stands
          cases stands
  | cons previous rest inductionHypothesis =>
      obtain ⟨undisturbedBefore, follows⟩ := undisturbed.tail
      have insideBefore : isInside (project.outPlace previous) location = true := by
        rwa [outPlace, ← follows.outPath_eq]
      by_cases isWritten : location ∈ project.writtenPlaces previous
      · exact ⟨previous, List.mem_cons_self, isWritten⟩
      · rw [follows.untouched location insideBefore,
          (keeps_writtenPlaces project previous).contents location isWritten] at stands
        obtain ⟨origin, isOrigin, writes⟩ :=
          inductionHypothesis undisturbedBefore insideBefore stands
        exact ⟨origin, List.mem_cons_of_mem _ isOrigin, writes⟩

/-- No file that a build lists lies in the output directory. -/
theorem input_outside (isFound : project.sources call = .ok found) {file : SourceFile}
    (member : file ∈ found) :
    isInside (project.outPlace call) (place project.directory file.path) = false := by
  have isCall : call ∈ call :: earlier := List.mem_cons_self
  rw [Bool.eq_false_iff]
  intro inside
  obtain ⟨names, stands⟩ := exists_stands (undisturbed.history.wellFormed call isCall) isFound member
  obtain ⟨content, holds⟩ := stands.holds
  rw [← stands.place_path] at holds
  obtain ⟨origin, isOrigin, writes⟩ := undisturbed.exists_writer inside holds
  refine undisturbed.apart call isCall origin (List.mem_cons_of_mem _ isOrigin) _ ?_ writes
  rw [inputPlaces, listed_eq isFound]
  exact List.mem_map_of_mem member

end Undisturbed

/-! ## Clean builds -/

/-- The same build with nothing in the output directory. -/
def clean (project : Project) (call : BuildCall) : BuildCall :=
  { call with before := call.before.emptied (project.outPlace call) }

/-- Whether nothing that decides which files a build lists is read through the output
directory. -/
def ScanDetached (project : Project) (call : BuildCall) : Prop :=
  Scan.Detached call.before project.directory call.environment project.path
    (project.outPlace call)

/-- Whether two builds come to the same: the same failure, or both succeed with as many classes
and methods, the same outputs and the same manifest. -/
structure Agrees (project : Project) (call other : BuildCall) : Prop where
  failure : ∀ error, (project.run call).result = .error error ↔
    (project.run other).result = .error error
  report : ∀ report, (project.run call).result = .ok report → ∃ otherReport,
    (project.run other).result = .ok otherReport ∧
      report.classesQuoted = otherReport.classesQuoted ∧
      report.methodsQuoted = otherReport.methodsQuoted
  outputs : ∀ report, (project.run call).result = .ok report →
    ∀ file ∈ project.listed call, ∃ output bytes,
      file.output? (project.context call) = some output ∧
      (project.run call).fs.read? project.directory output = some bytes ∧
      (project.run other).fs.read? project.directory output = some bytes
  manifest : ∀ report, (project.run call).result = .ok report →
    ∀ path, call.config.manifestPath? project.path = some path → ∃ bytes,
      (project.run call).fs.read? project.directory path = some bytes ∧
      (project.run other).fs.read? project.directory path = some bytes

section Clean

theorem output?_clean (project : Project) (call : BuildCall) (file : SourceFile) :
    file.output? (project.context (project.clean call)) = file.output? (project.context call) := by
  have sameContext := @context_eq project (project.clean call) call rfl rfl rfl
  rw [sameContext, SourceFile.output?_withCache]

theorem expected_clean (project : Project) (call : BuildCall) (fs : FileSystem)
    (file : SourceFile) :
    file.expected (project.context (project.clean call)) fs =
      file.expected (project.context call) fs := by
  have sameContext := @context_eq project (project.clean call) call rfl rfl rfl
  rw [sameContext, SourceFile.expected_withCache]

variable (undisturbed : project.Undisturbed (call :: earlier))
  (detached : project.ScanDetached call)
include undisturbed detached

/-- A clean build lists the same files, since none of them lies in the output directory. -/
theorem sources_clean : project.sources (project.clean call) = project.sources call := by
  have wellFormed := undisturbed.history.wellFormed call List.mem_cons_self
  cases valid : call.config.validate with
  | error error =>
      have cleanRefused : (project.clean call).config.validate = .error error := valid
      rw [sources_of_invalid valid, sources_of_invalid cleanRefused]
  | ok =>
      have cleanValid : (project.clean call).config.validate = .ok () := valid
      rw [sources_of_valid valid, sources_of_valid cleanValid]
      refine Scan.sourceFiles_emptied wellFormed detached fun files scanned file member => ?_
      have isFound : project.sources call = .ok files := (sources_of_valid valid).trans scanned
      exact undisturbed.input_outside isFound member

theorem listed_clean : project.listed (project.clean call) = project.listed call := by
  rw [listed, sources_clean undisturbed detached, listed]

/-- A clean build reads the same from the files that it lists. -/
theorem read?_clean {file : SourceFile} (member : file ∈ project.listed call) :
    (project.clean call).before.read? project.directory file.path =
      call.before.read? project.directory file.path := by
  have wellFormed := undisturbed.history.wellFormed call List.mem_cons_self
  have cleanWellFormed := wellFormed.emptied (project.outPlace call)
  obtain ⟨found, isFound, isFile⟩ := sources_of_mem_listed member
  have cleanFound : project.sources (project.clean call) = .ok found := by
    rw [sources_clean undisturbed detached, isFound]
  obtain ⟨names, stands⟩ := exists_stands wellFormed isFound isFile
  obtain ⟨cleanNames, cleanStands⟩ := exists_stands cleanWellFormed cleanFound isFile
  rw [(stands.reaches wellFormed).read?_eq, (cleanStands.reaches cleanWellFormed).read?_eq]
  have outside := undisturbed.input_outside isFound isFile
  have same : (project.clean call).before.content? (place project.directory file.path) = _ :=
    FileSystem.content?_emptied_of_outside outside
  rw [same]

theorem contents_clean : project.contents (project.clean call) = project.contents call := by
  rw [contents, contents, listed_clean undisturbed detached]
  exact List.filterMap_congr fun file member => read?_clean undisturbed detached member

theorem writtenPlaces_clean :
    project.outputPlaces (project.clean call) = project.outputPlaces call ∧
      project.writtenPlaces (project.clean call) = project.writtenPlaces call := by
  have sameOutputs : project.outputPlaces (project.clean call) = project.outputPlaces call := by
    rw [outputPlaces, outputPlaces, listed_clean undisturbed detached]
    refine List.filterMap_congr fun file _ => ?_
    rw [output?_clean]
  refine ⟨sameOutputs, ?_⟩
  rw [writtenPlaces, writtenPlaces, sameOutputs]
  rfl

/-- A clean build is undisturbed on its own. -/
theorem undisturbed_clean (writes : project.WritesSucceed (project.clean call)) :
    project.Undisturbed [project.clean call] := by
  have isCall : call ∈ call :: earlier := List.mem_cons_self
  obtain ⟨sameOutputs, sameWritten⟩ := writtenPlaces_clean undisturbed detached
  have sameInputs : project.inputPlaces (project.clean call) = project.inputPlaces call := by
    rw [inputPlaces, inputPlaces, listed_clean undisturbed detached]
  have sameContents := contents_clean undisturbed detached
  constructor
  case history =>
    refine .first ((undisturbed.history.wellFormed call isCall).emptied _) fun location inside => ?_
    exact FileSystem.content?_emptied_of_inside inside
  case unedited => exact trivial
  case written => simpa using writes
  case incremental =>
    simp only [List.mem_singleton, forall_eq]
    exact undisturbed.incremental call isCall
  case sameRoot => simp
  case plain =>
    simp only [List.mem_singleton, forall_eq]
    intro location content stands
    exact undisturbed.plain call isCall location content (FileSystem.content?_of_emptied stands)
  case apart =>
    simp only [List.mem_singleton, forall_eq, sameInputs, sameWritten]
    exact undisturbed.apart call isCall call isCall
  case manifests =>
    simp only [List.mem_singleton, forall_eq, sameOutputs]
    exact undisturbed.manifests call isCall
  case contents =>
    simp only [List.mem_singleton, forall_eq, sameContents]
    exact undisturbed.contents call isCall call isCall
  case options => simp

end Clean

/-- Faithful builds of the same files with the same configuration come to the same, if nothing
fails to be written. -/
theorem agrees_of_faithful {other : BuildCall} (sameConfig : call.config = other.config)
    (isFound : project.sources call = .ok found) (isOther : project.sources other = .ok found)
    (faithful : project.Faithful call found) (otherFaithful : project.Faithful other found)
    (wrote : (project.run call).result ≠ .error .file)
    (otherWrote : (project.run other).result ≠ .error .file)
    (sameOutput : ∀ file : SourceFile,
      file.output? (project.context call) = file.output? (project.context other))
    (sameExpected : ∀ file ∈ found, file.expected (project.context call) call.before =
      file.expected (project.context other) other.before) :
    project.Agrees call other := by
  obtain ⟨repositories, failures, length⟩ := Build.reports_totals faithful.reports
  obtain ⟨otherRepositories, otherFailures, otherLength⟩ :=
    Build.reports_totals otherFaithful.reports
  have sameRepositories : Build.repositories (project.outcomes call found) =
      Build.repositories (project.outcomes other found) := by
    rw [repositories, otherRepositories]
    refine List.flatMap_congr fun file member => ?_
    rw [Build.expectedRepositories, sameExpected file member, Build.expectedRepositories]
  have sameFailures : Build.failures (project.outcomes call found) =
      Build.failures (project.outcomes other found) := by
    rw [Build.failures, failures, Build.failures, otherFailures]
    refine List.countP_congr fun file member => ?_
    rw [Build.isRefused, sameExpected file member, Build.isRefused]
  have result := ((concludes_run isFound).result_eq wrote).2
  have otherResult := ((concludes_run isOther).result_eq otherWrote).2
  rw [← sameFailures, otherLength, ← length, ← sameConfig] at otherResult
  by_cases clear : Build.failures (project.outcomes call found) = 0
  · rw [if_pos clear] at result otherResult
    have accepted := Build.accepted_of_reports faithful.reports clear
    refine ⟨?_, ?_, ?_, ?_⟩
    · intro error
      rw [result, otherResult]
      constructor <;> intro same <;> cases same
    · intro report succeeded
      rw [result] at succeeded
      cases succeeded
      refine ⟨_, otherResult, ?_, ?_⟩
      · exact congrArg List.length sameRepositories
      · exact congrArg Transformed.countMethods sameRepositories
    · intro report _ file member
      rw [listed_eq isFound] at member
      obtain ⟨transformed, isExpected⟩ := accepted file member
      obtain ⟨_, _, _, below, _⟩ := SourceFile.expected_eq_ok isExpected
      have isOutput := SourceFile.output?_eq below
      refine ⟨_, _, isOutput, faithful.outputs file member _ transformed isOutput isExpected, ?_⟩
      refine otherFaithful.outputs file member _ transformed ?_ ?_
      · rw [← sameOutput, isOutput]
      · rw [← sameExpected file member, isExpected]
    · intro report succeeded path named
      refine ⟨_, (concludes_run isFound).read?_manifest succeeded named, ?_⟩
      rw [Build.manifestBytes, sameRepositories, ← Build.manifestBytes]
      rw [sameConfig] at named
      exact (concludes_run isOther).read?_manifest otherResult named
  · rw [if_neg clear] at result otherResult
    have failed : ∀ report, (project.run call).result ≠ .ok report := by
      intro report succeeded
      rw [result] at succeeded
      cases succeeded
    refine ⟨?_, ?_, ?_, ?_⟩
    · intro error
      rw [result, otherResult]
    · exact fun report succeeded => absurd succeeded (failed report)
    · exact fun report succeeded => absurd succeeded (failed report)
    · exact fun report succeeded => absurd succeeded (failed report)

/-- A build that uses the cache comes to the same as a build of the same sources into an empty
output directory, whatever builds came before it. -/
theorem agrees_clean (undisturbed : project.Undisturbed (call :: earlier))
    (detached : project.ScanDetached call)
    (writes : project.WritesSucceed (project.clean call)) :
    project.Agrees call (project.clean call) := by
  have sameSources := sources_clean undisturbed detached
  cases isFound : project.sources call with
  | error error =>
      rw [isFound] at sameSources
      constructor <;> rw [run_of_sources_error isFound, run_of_sources_error sameSources]
      · exact fun _ => Iff.rfl
      all_goals exact fun _ => nofun
  | ok found =>
      rw [isFound] at sameSources
      refine agrees_of_faithful rfl isFound sameSources (undisturbed.faithful isFound)
        ((undisturbed_clean undisturbed detached writes).faithful sameSources)
        (undisturbed.written call List.mem_cons_self).1 writes.1
        (fun file => (output?_clean project call file).symm) fun file member => ?_
      rw [expected_clean]
      refine SourceFile.expected_congr (Eq.symm ?_)
      exact read?_clean undisturbed detached (by rwa [listed_eq isFound])

end Project

/-! ## Two builds in a row -/

theorem IgnoreFiles.exclusionsDetached_of_absent {fs : FileSystem}
    (absent : ∀ pair ∈ fs.entries.toList, pair.1.getLast? ≠ some ".git")
    (here location : Location) : ExclusionsDetached fs here location := by
  intro other entry stands last
  have below : other ≠ [] := by
    rintro rfl
    cases last
  exact absurd last (absent (other, entry) ((FileSystem.entryAt_of_mem_toList below).mpr stands))

namespace Project

variable {project : Project} {call first : BuildCall}

theorem writesSucceed_of_succeeded {report : BuildReport}
    (succeeded : (project.run call).result = .ok report) : project.WritesSucceed call := by
  refine ⟨by rw [succeeded]; nofun, ?_⟩
  cases isFound : project.sources call with
  | error error =>
      rw [run_of_sources_error isFound] at succeeded
      cases succeeded
  | ok found =>
      rw [listed_eq isFound]
      exact written_of_succeeded isFound succeeded

/-- The same build once more is undisturbed if both find nothing but one content. -/
theorem undisturbed_pair {only : ByteArray} (wellFormed : first.before.WellFormed)
    (stillWellFormed : call.before.WellFormed)
    (empty : first.before.filesBelow (project.outPlace first) = [])
    (sameState : call.before = (project.run first).fs) (sameConfig : call.config = first.config)
    (incremental : first.config.incremental = true)
    (written : ∀ each ∈ [call, first], project.WritesSucceed each)
    (plain : ∀ each ∈ [call, first], each.before.PlainNames)
    (apart : ∀ each ∈ [call, first], ∀ other ∈ [call, first],
      ∀ location ∈ project.inputPlaces each, location ∉ project.writtenPlaces other)
    (manifests : ∀ each ∈ [call, first], ∀ location ∈ project.manifestPlace? each,
      location ∉ project.outputPlaces each)
    (contents : ∀ each ∈ [call, first], ∀ content ∈ project.contents each, content = only) :
    project.Undisturbed [call, first] := by
  have same : ∀ each ∈ [call, first], each.config = first.config := by
    intro each member
    rcases List.mem_cons.mp member with rfl | member
    · exact sameConfig
    · rw [List.mem_singleton.mp member]
  refine ⟨.next (.first wellFormed fun location inside => ?_) stillWellFormed ⟨?_, ?_⟩, ⟨?_, ?_⟩,
    ?_, ?_, written, plain, apart, manifests, ?_, ?_⟩
  · exact FileSystem.content?_of_filesBelow_eq_nil empty inside
  · rw [sameConfig]
  · intro location _
    rw [sameState]
  · intro _ _ location _
    rw [sameState]
  · trivial
  · intro each member
    rw [same each member, incremental]
  · intro each member other isOther
    rw [same each member, same other isOther]
  · intro each member other isOther content isContent otherContent isOtherContent _
    rw [contents each member content isContent, contents other isOther otherContent isOtherContent]
  · intro each member other isOther _
    rw [same each member, same other isOther]

end Project

namespace Sample

open SourceQuote.Project

def onceMore (first : BuildCall) (found : List SourceFile) : BuildCall :=
  { first with before := (project.concludedWith first (project.loaded first) found).1 }

/-- What is checked of a build, and of the same build once more: what the first finds and reports;
what the second finds and reports with the cache of the first; what a clean one finds and reports;
and what can disturb them. -/
def Repeats (first : BuildCall) (found foundLater : List SourceFile)
    (report laterReport : BuildReport) (only : ByteArray) : Prop :=
  (first.before.WellFormed ∧ first.before.PlainNames ∧ first.config.incremental = true ∧
    first.before.filesBelow (project.outPlace first) = [] ∧
    project.sources first = .ok found ∧ (project.run first).result = .ok report ∧
    ∀ manifest ∈ first.config.manifestPath? project.path,
      project.cachePlace first ≠ FileSystem.place project.directory manifest) ∧
  ((onceMore first found).before.WellFormed ∧ (onceMore first found).before.PlainNames ∧
    project.sources (onceMore first found) = .ok foundLater ∧
    (project.concludedWith (onceMore first found) (Build.updatedCache (project.loaded first)
      (project.outcomes first found)) foundLater).2 = .ok laterReport) ∧
  (project.sources (project.clean (onceMore first found)) = .ok found ∧
    (project.run (project.clean (onceMore first found))).result = .ok report) ∧
  (∀ each ∈ [onceMore first found, first], ∀ other ∈ [onceMore first found, first],
    ∀ location ∈ project.inputPlaces each, location ∉ project.writtenPlaces other) ∧
  (∀ each ∈ [onceMore first found, first], ∀ location ∈ project.manifestPlace? each,
    location ∉ project.outputPlaces each) ∧
  ∀ each ∈ [onceMore first found, first], ∀ content ∈ project.contents each, content = only

instance (first : BuildCall) (found foundLater : List SourceFile)
    (report laterReport : BuildReport) (only : ByteArray) :
    Decidable (Repeats first found foundLater report laterReport only) :=
  inferInstanceAs (Decidable (_ ∧ _))

theorem before_onceMore {first : BuildCall} {found : List SourceFile}
    (isFound : project.sources first = .ok found) :
    (onceMore first found).before = (project.run first).fs :=
  (run_of_loaded isFound rfl).1.symm

namespace Repeats

variable {first : BuildCall} {found foundLater : List SourceFile}
  {report laterReport : BuildReport} {only : ByteArray}

theorem result (repeats : Repeats first found foundLater report laterReport only) :
    (project.run (onceMore first found)).result = .ok laterReport := by
  obtain ⟨⟨_, _, incremental, _, isFound, succeeded, elsewhere⟩, ⟨_, _, isFoundLater, again⟩, _⟩ :=
    repeats
  have wrote : (project.run first).result ≠ .error .file := by
    rw [succeeded]
    nofun
  have loaded : project.loaded (onceMore first found) =
      Build.updatedCache (project.loaded first) (project.outcomes first found) :=
    loaded_of_run isFound incremental wrote elsewhere (before_onceMore isFound) rfl rfl
  rw [(run_of_loaded isFoundLater loaded).2, again]

theorem undisturbed (repeats : Repeats first found foundLater report laterReport only) :
    project.Undisturbed [onceMore first found, first] := by
  have ⟨⟨wellFormed, plain, incremental, empty, isFound, succeeded, _⟩,
    ⟨stillWellFormed, stillPlain, _⟩, _, apart, manifests, contents⟩ := repeats
  refine undisturbed_pair wellFormed stillWellFormed empty (before_onceMore isFound) rfl
    incremental ?_ ?_ apart manifests contents
  · simp only [List.mem_cons, List.not_mem_nil, or_false, forall_eq_or_imp, forall_eq]
    exact ⟨writesSucceed_of_succeeded repeats.result, writesSucceed_of_succeeded succeeded⟩
  · simp only [List.mem_cons, List.not_mem_nil, or_false, forall_eq_or_imp, forall_eq]
    exact ⟨stillPlain, plain⟩

theorem writesSucceed_clean (repeats : Repeats first found foundLater report laterReport only) :
    project.WritesSucceed (project.clean (onceMore first found)) := by
  obtain ⟨_, _, ⟨_, succeeded⟩, _⟩ := repeats
  exact writesSucceed_of_succeeded succeeded

end Repeats

/-- The same build once more, which finds the file in the cache. -/
def repeatedLone : BuildCall :=
  { loneBuild with
    before := (project.concludedWith loneBuild (project.loaded loneBuild) [loneFile]).1 }

theorem repeats_lone : Repeats loneBuild [loneFile] [loneFile]
    ⟨1, 1, 0, 0, 0, 1, 0, some manifestPath⟩ ⟨1, 0, 0, 1, 0, 1, 0, some manifestPath⟩
    markedSource.toByteArray := by
  decide +kernel

theorem checked_lone :
    (project.clean repeatedLone).before.existing? project.directory project.path =
      repeatedLone.before.existing? project.directory project.path ∧
    (UserIgnore.rules (project.clean repeatedLone).before project.directory []).isEmpty ∧
    (UserIgnore.rules repeatedLone.before project.directory []).isEmpty ∧
    ∀ pair ∈ repeatedLone.before.entries.toList, pair.1.getLast? ≠ some ".git" := by
  decide +kernel

/-- Nothing that a scan reads lies in the output directory. -/
theorem detached_repeatedLone : project.ScanDetached repeatedLone := by
  obtain ⟨sameProject, cleanRules, rules, absent⟩ := checked_lone
  refine ⟨sameProject, ?_, IgnoreFiles.exclusionsDetached_of_absent absent _ _⟩
  exact (List.isEmpty_iff.mp cleanRules).trans (List.isEmpty_iff.mp rules).symm

/-- Into the directory of a repository, with its exclusion list as the manifest. -/
def excludingConfig : Config :=
  { outDir := ".git", manifest := some "info/exclude", included := ["*.ts"] }

/-- A file in a directory whose name is a line of every manifest. -/
def excludedFile : SourceFile :=
  ⟨"/p/  \"version\": 1,/a.ts", "  \"version\": 1,/a.ts", .typeScript⟩

def excludedPath : String := "/p/.git/info/exclude"

def excludingBuild : BuildCall :=
  ⟨holding [(excludedFile.path, markedSource)], [], excludingConfig⟩

/-- The same build once more, from which the manifest of the first hides the file. -/
def repeatedExcluding : BuildCall :=
  { excludingBuild with
    before :=
      (project.concludedWith excludingBuild (project.loaded excludingBuild) [excludedFile]).1 }

theorem repeats_excluding : Repeats excludingBuild [excludedFile] []
    ⟨1, 1, 0, 0, 0, 1, 0, some excludedPath⟩ ⟨0, 0, 0, 0, 0, 0, 0, some excludedPath⟩
    markedSource.toByteArray := by
  decide +kernel

end Sample

namespace Project

open Sample

theorem agrees_clean_repeated :
    project.Undisturbed [repeatedLone, loneBuild] ∧
    project.Agrees repeatedLone (project.clean repeatedLone) := by
  have undisturbed : project.Undisturbed [repeatedLone, loneBuild] := repeats_lone.undisturbed
  exact ⟨undisturbed, agrees_clean undisturbed detached_repeatedLone
    repeats_lone.writesSucceed_clean⟩

/-- A build whose manifest is taken for a list of exclusions comes to something else than a clean
build. -/
theorem disagrees_clean_excluding :
    project.Undisturbed [repeatedExcluding, excludingBuild] ∧
    project.WritesSucceed (project.clean repeatedExcluding) ∧
    ¬ project.Agrees repeatedExcluding (project.clean repeatedExcluding) := by
  refine ⟨repeats_excluding.undisturbed, repeats_excluding.writesSucceed_clean, ?_⟩
  intro agrees
  obtain ⟨_, _, ⟨_, cleanResult⟩, _⟩ := repeats_excluding
  obtain ⟨report, isReport, sameClasses, _⟩ := agrees.report _ repeats_excluding.result
  have same := Except.ok.inj (cleanResult.symm.trans isReport)
  subst same
  cases sameClasses

end Project

end SourceQuote

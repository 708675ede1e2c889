import SourceQuote.Project.Build
import SourceQuote.Proofs.Scan.Enumeration
import Mathlib.Data.List.Forall2

/-!
Contract: what building files comes to.

Owns: everything that building one file can do, as a relation; what a file should come to if
nothing were remembered; and the induction over the files of a build.

The main results compare the two: if the cache tells the truth about a file, its outcome is the
one that the pass gives on what the file held before the build, and its output holds the result
of the pass when the build ends.
-/

namespace SourceQuote

open SourceQuote.FileSystem (Keeps place)

theorem exists_left_of_mem {α β : Type} {Related : α → β → Prop} {items : List α}
    {results : List β} (related : List.Forall₂ Related items results) {result : β}
    (member : result ∈ results) : ∃ item ∈ items, Related item result := by
  induction related with
  | nil => cases member
  | cons head _ inductionHypothesis =>
      rcases List.mem_cons.mp member with rfl | later
      · exact ⟨_, List.mem_cons_self, head⟩
      · obtain ⟨item, isItem, holds⟩ := inductionHypothesis later
        exact ⟨item, List.mem_cons_of_mem _ isItem, holds⟩

theorem forall₂_members {α β : Type} {Related : α → β → Prop} {items : List α}
    {results : List β} (related : List.Forall₂ Related items results) :
    List.Forall₂ (fun item result => (item ∈ items ∧ result ∈ results) ∧ Related item result)
      items results := by
  induction related with
  | nil => exact .nil
  | cons head _ inductionHypothesis =>
      refine .cons ⟨⟨List.mem_cons_self, List.mem_cons_self⟩, head⟩ (inductionHypothesis.imp ?_)
      rintro item result ⟨⟨isItem, isResult⟩, holds⟩
      exact ⟨⟨List.mem_cons_of_mem _ isItem, List.mem_cons_of_mem _ isResult⟩, holds⟩

/-! ## One file -/

namespace SourceFile

def output? (context : BuildContext) (file : SourceFile) : Option String :=
  (Path.below? file.path context.root).map (Path.join context.out)

def expected (context : BuildContext) (fs : FileSystem) (file : SourceFile) :
    Except Error Transformed :=
  match fs.read? context.directory file.path with
  | none => .error .file
  | some content =>
      match Path.below? file.path context.root with
      | none => .error (.build (.outsideRoot file.relative))
      | some within => file.transformed context within content

/-- What the cache of a build knows of a file as it is. -/
def remembered? (context : BuildContext) (fs : FileSystem) (file : SourceFile) :
    Option CachedFile :=
  (fs.read? context.directory file.path).bind fun content =>
    context.cache.bind fun cache => cache.fresh? file.relative (Sha256.hexDigest content)

/-- What building a file can do: the file system after it, and the outcome. -/
inductive Builds (context : BuildContext) (fs : FileSystem) (file : SourceFile) :
    FileSystem → FileOutcome → Prop
  | unreadable (unread : fs.read? context.directory file.path = none) :
      Builds context fs file fs ⟨file.relative, "", .error .file⟩
  | outside {content : ByteArray}
      (read : fs.read? context.directory file.path = some content)
      (outside : Path.below? file.path context.root = none) :
      Builds context fs file fs
        ⟨file.relative, Sha256.hexDigest content, .error (.build (.outsideRoot file.relative))⟩
  | unchanged {content : ByteArray} {within : String} {entry : CachedFile}
      (read : fs.read? context.directory file.path = some content)
      (below : Path.below? file.path context.root = some within)
      (cached : file.cached? context fs (Path.join context.out within)
        (Sha256.hexDigest content) = some entry) :
      Builds context fs file fs
        ⟨file.relative, Sha256.hexDigest content, .ok (.unchanged, entry.repositories)⟩
  | refused {content : ByteArray} {within : String} {error : Error}
      (read : fs.read? context.directory file.path = some content)
      (below : Path.below? file.path context.root = some within)
      (failed : file.transformed context within content = .error error) :
      Builds context fs file fs ⟨file.relative, Sha256.hexDigest content, .error error⟩
  | produced {content : ByteArray} {within : String} {transformed : Transformed}
      (read : fs.read? context.directory file.path = some content)
      (below : Path.below? file.path context.root = some within)
      (passed : file.transformed context within content = .ok transformed) :
      Builds context fs file
        (fs.save context.directory (Path.join context.out within)
          transformed.source.toByteArray).fs
        ⟨file.relative, Sha256.hexDigest content,
          if (fs.save context.directory (Path.join context.out within)
            transformed.source.toByteArray).succeeded
          then .ok (statusOf transformed, transformed.repositories) else .error .file⟩

theorem builds_build (context : BuildContext) (fs : FileSystem) (file : SourceFile) :
    Builds context fs file (file.build context fs).1 (file.build context fs).2.1 := by
  unfold build
  split
  · next unread => exact .unreadable unread
  · next content read =>
      dsimp only
      split
      · next outside => exact .outside read outside
      · next within below =>
          split
          · next entry cached => exact .unchanged read below cached
          · unfold produce
            split
            · next error failed => exact .refused read below failed
            · next transformed passed =>
                dsimp only
                exact .produced read below passed

end SourceFile

/-- Whether the output of a file could not be written: a file operation failed although the file
was read. -/
def FileOutcome.IsUnwritten (outcome : FileOutcome) : Prop :=
  outcome.result = .error .file ∧ outcome.contentHash ≠ ""

theorem Sha256.hexDigest_ne_empty (message : ByteArray) : hexDigest message ≠ "" := by
  intro empty
  have digits := congrArg String.toList empty
  rw [hexDigest, String.toList_ofList] at digits
  simp [wordDigits] at digits

theorem FileOutcome.succeeded_of_written {relative : String} {content : ByteArray}
    {succeeded : Bool} {result : FileStatus × List Repository}
    (written : ¬ IsUnwritten
      ⟨relative, Sha256.hexDigest content, if succeeded then .ok result else .error .file⟩) :
    succeeded = true := by
  cases succeeded with
  | true => rfl
  | false => exact absurd ⟨rfl, Sha256.hexDigest_ne_empty content⟩ written

theorem FileOutcome.written_of_not_failed {outcome : FileOutcome}
    (succeeded : outcome.isFailed = false) : ¬ outcome.IsUnwritten := by
  intro unwritten
  rw [isFailed, unwritten.1] at succeeded
  cases succeeded

/-! ## The files of a build -/

namespace Build

section Induction

variable {context : BuildContext} {sources : List SourceFile} {fs : FileSystem}
  {Allowed : FileOutcome → Prop} (Invariant : FileSystem → Prop)

/-- What every step of a build keeps, every run of it keeps. -/
theorem files_invariant
    (step : ∀ file ∈ sources, ∀ {before after outcome}, Invariant before →
      SourceFile.Builds context before file after outcome → Allowed outcome → Invariant after)
    (allowed : ∀ outcome ∈ (files context fs sources).2.1, Allowed outcome)
    (initial : Invariant fs) : Invariant (files context fs sources).1 := by
  induction sources generalizing fs with
  | nil => exact initial
  | cons file rest inductionHypothesis =>
      have first : Invariant (file.build context fs).1 :=
        step file List.mem_cons_self initial (file.builds_build context fs)
          (allowed _ List.mem_cons_self)
      refine inductionHypothesis ?_ ?_ first
      · exact fun other member => step other (List.mem_cons_of_mem _ member)
      · exact fun outcome member => allowed outcome (List.mem_cons_of_mem _ member)

/-- What every step of a build says of its file, and every other step leaves true, the whole run
says of all files. -/
theorem files_results (Result : SourceFile → FileOutcome → FileSystem → Prop)
    (step : ∀ file ∈ sources, ∀ {before after outcome}, Invariant before →
      SourceFile.Builds context before file after outcome → Allowed outcome →
      Invariant after ∧ Result file outcome after)
    (stable : ∀ file ∈ sources, ∀ other ∈ sources, ∀ {before after outcome otherOutcome},
      Invariant before → SourceFile.Builds context before other after otherOutcome →
      Allowed otherOutcome → Result file outcome before → Result file outcome after)
    (allowed : ∀ outcome ∈ (files context fs sources).2.1, Allowed outcome)
    (initial : Invariant fs) :
    List.Forall₂ (fun file outcome => Result file outcome (files context fs sources).1)
      sources (files context fs sources).2.1 := by
  induction sources generalizing fs with
  | nil => exact .nil
  | cons file rest inductionHypothesis =>
      have first : Invariant (file.build context fs).1 ∧
          Result file (file.build context fs).2.1 (file.build context fs).1 :=
        step file List.mem_cons_self initial (file.builds_build context fs)
          (allowed _ List.mem_cons_self)
      have later : ∀ outcome ∈ (files context (file.build context fs).1 rest).2.1,
          Allowed outcome :=
        fun outcome member => allowed outcome (List.mem_cons_of_mem _ member)
      refine .cons ?_ (inductionHypothesis ?_ ?_ later first.1)
      · -- The result of the first file outlives the steps of the others.
        have outlives := files_invariant (fun between => Invariant between ∧
          Result file (file.build context fs).2.1 between) ?_ later first
        · exact outlives.2
        · intro other member before after outcome holds built isAllowed
          have isOther := List.mem_cons_of_mem file member
          exact ⟨(step other isOther holds.1 built isAllowed).1,
            stable file List.mem_cons_self other isOther holds.1 built isAllowed holds.2⟩
      · exact fun other member => step other (List.mem_cons_of_mem _ member)
      · intro own ownMember other member
        exact stable own (List.mem_cons_of_mem _ ownMember) other
          (List.mem_cons_of_mem _ member)

end Induction

end Build

/-! ## Outcomes and outputs -/

/-- Whether an outcome is what a file should come to, up to how it was come by. -/
structure FileOutcome.Reports (outcome : FileOutcome) (context : BuildContext)
    (fs : FileSystem) (file : SourceFile) : Prop where
  relative : outcome.relative = file.relative
  contentHash : ∀ {content}, fs.read? context.directory file.path = some content →
    outcome.contentHash = Sha256.hexDigest content
  result : outcome.result.map Prod.snd =
    (file.expected context fs).map Transformed.repositories

theorem FileOutcome.Reports.cases {outcome : FileOutcome} {context : BuildContext}
    {fs : FileSystem} {file : SourceFile} (reports : outcome.Reports context fs file) :
    (∃ error, outcome.result = .error error ∧ file.expected context fs = .error error) ∨
      ∃ status transformed, outcome.result = .ok (status, transformed.repositories) ∧
        file.expected context fs = .ok transformed := by
  have same := reports.result
  cases result : outcome.result with
  | error error =>
      rw [result] at same
      cases expected : file.expected context fs with
      | error _ =>
          rw [expected] at same
          cases same
          exact Or.inl ⟨_, rfl, rfl⟩
      | ok _ =>
          rw [expected] at same
          cases same
  | ok built =>
      rw [result] at same
      cases expected : file.expected context fs with
      | error _ =>
          rw [expected] at same
          cases same
      | ok transformed =>
          rw [expected] at same
          have repositories : built.2 = transformed.repositories := Except.ok.inj same
          exact Or.inr ⟨built.1, transformed, by rw [← repositories], rfl⟩

namespace SourceFile

variable {context : BuildContext} {fs : FileSystem} {file : SourceFile} {content : ByteArray}
  {within : String}

/-- Whether the repositories that the cache of a build knows of a file are those of the pass. -/
def RepositoriesTruthful (context : BuildContext) (fs : FileSystem) (file : SourceFile) : Prop :=
  ∀ entry output, file.remembered? context fs = some entry → file.output? context = some output →
    ∃ transformed, file.expected context fs = .ok transformed ∧
      entry.repositories = transformed.repositories

/-- Whether the output of a file that the cache knows, if there is one, is that of the pass. -/
def OutputTruthful (context : BuildContext) (fs : FileSystem) (file : SourceFile) : Prop :=
  ∀ entry output transformed bytes, file.remembered? context fs = some entry →
    file.output? context = some output → file.expected context fs = .ok transformed →
    fs.content? (place context.directory output) = some bytes →
    bytes = transformed.source.toByteArray

/-- Whether what stands at the output of a file stood there before, or is what the pass gives. -/
def OutputKept (context : BuildContext) (fs now : FileSystem) (file : SourceFile) : Prop :=
  ∀ output, file.output? context = some output →
    now.content? (place context.directory output) =
        fs.content? (place context.directory output) ∨
      ∃ transformed, file.expected context fs = .ok transformed ∧
        now.content? (place context.directory output) = some transformed.source.toByteArray

/-- Whether the output of a file, if the pass gives one, stands in its place. -/
def OutputStands (context : BuildContext) (fs now : FileSystem) (file : SourceFile) : Prop :=
  ∀ output transformed, file.output? context = some output →
    file.expected context fs = .ok transformed →
    now.read? context.directory output = some transformed.source.toByteArray

theorem expected_eq (read : fs.read? context.directory file.path = some content)
    (below : Path.below? file.path context.root = some within) :
    file.expected context fs = file.transformed context within content := by
  simp only [expected, read, below]

theorem expected_eq_ok {transformed : Transformed}
    (isExpected : file.expected context fs = .ok transformed) :
    ∃ content within, fs.read? context.directory file.path = some content ∧
      Path.below? file.path context.root = some within ∧
      file.transformed context within content = .ok transformed := by
  unfold expected at isExpected
  split at isExpected
  · cases isExpected
  · next content read =>
      split at isExpected
      · cases isExpected
      · next within below => exact ⟨content, within, read, below, isExpected⟩

theorem output?_eq (below : Path.below? file.path context.root = some within) :
    file.output? context = some (Path.join context.out within) := by
  rw [output?, below]
  rfl

theorem remembered?_of_cached? {now : FileSystem} {output : String} {entry : CachedFile}
    (read : fs.read? context.directory file.path = some content)
    (cached : file.cached? context now output (Sha256.hexDigest content) = some entry) :
    file.remembered? context fs = some entry ∧
      ∃ bytes, now.read? context.directory output = some bytes := by
  obtain ⟨fresh, isFile⟩ := Option.filter_eq_some_iff.mp cached
  rw [remembered?, read]
  exact ⟨fresh, Option.isSome_iff_exists.mp isFile⟩

/-- Building a file comes to what it should if the cache tells the truth about it. -/
theorem Builds.reports {before after : FileSystem} {outcome : FileOutcome}
    (built : Builds context before file after outcome)
    (same : before.read? context.directory file.path = fs.read? context.directory file.path)
    (truthful : file.RepositoriesTruthful context fs) (written : ¬ outcome.IsUnwritten) :
    outcome.Reports context fs file := by
  have digest : ∀ {content other}, fs.read? context.directory file.path = some content →
      fs.read? context.directory file.path = some other →
      Sha256.hexDigest content = Sha256.hexDigest other := by
    intro content other read readOther
    rw [read] at readOther
    cases readOther
    rfl
  cases built with
  | unreadable unread =>
      rw [same] at unread
      refine ⟨rfl, fun read => ?_, ?_⟩
      · rw [unread] at read
        cases read
      · simp only [expected, unread]
        rfl
  | outside read outside =>
      rw [same] at read
      refine ⟨rfl, digest read, ?_⟩
      simp only [expected, read, outside]
      rfl
  | unchanged read below cached =>
      rw [same] at read
      obtain ⟨remembered, _⟩ := remembered?_of_cached? read cached
      obtain ⟨transformed, isExpected, known⟩ := truthful _ _ remembered (output?_eq below)
      refine ⟨rfl, digest read, ?_⟩
      rw [isExpected]
      exact congrArg Except.ok known
  | refused read below failed =>
      rw [same] at read
      refine ⟨rfl, digest read, ?_⟩
      rw [expected_eq read below, failed]
      rfl
  | produced read below passed =>
      rw [same] at read
      refine ⟨rfl, digest read, ?_⟩
      rw [expected_eq read below, passed]
      dsimp only
      rw [if_pos (FileOutcome.succeeded_of_written written)]
      rfl

end SourceFile

def BuildContext.outputPlaces (context : BuildContext) (sources : List SourceFile) :
    Set Location :=
  {location | ∃ file ∈ sources, ∃ output, file.output? context = some output ∧
    place context.directory output = location}

/-- What keeps the files of a build out of each other's way: each is found where its path says,
none is an output, and no two have the same output. -/
structure BuildContext.Separates (context : BuildContext) (fs : FileSystem)
    (sources : List SourceFile) : Prop where
  reaches : ∀ file ∈ sources, fs.Reaches context.directory file.path
  apart : ∀ file ∈ sources,
    place context.directory file.path ∉ context.outputPlaces sources
  distinct : ∀ file ∈ sources, ∀ other ∈ sources, ∀ {output otherOutput},
    file.output? context = some output → other.output? context = some otherOutput →
    place context.directory output = place context.directory otherOutput → file = other

namespace SourceFile.Builds

variable {context : BuildContext} {sources : List SourceFile} {fs before after : FileSystem}
  {file other : SourceFile} {outcome : FileOutcome}

theorem keeps (built : Builds context before file after outcome) (member : file ∈ sources) :
    Keeps (context.outputPlaces sources) before after := by
  cases built with
  | produced read below passed =>
      refine (FileSystem.keeps_save _ _ _ _).mono ?_
      rintro location rfl
      exact ⟨file, member, _, output?_eq below, rfl⟩
  | _ => exact .refl _ _

variable (separates : context.Separates fs sources) (member : file ∈ sources)
  (otherMember : other ∈ sources)
include separates member

theorem read?_eq (kept : Keeps (context.outputPlaces sources) fs before) :
    before.read? context.directory file.path = fs.read? context.directory file.path := by
  have reaches := separates.reaches file member
  rw [reaches.read?_eq, (reaches.mono kept.directories).read?_eq,
    kept.contents _ (separates.apart file member)]

/-- An output that is written is the one that the pass gives. -/
theorem outputKept (built : Builds context before file after outcome)
    (otherMember : other ∈ sources) (kept : Keeps (context.outputPlaces sources) fs before)
    (outputKept : other.OutputKept context fs before) : other.OutputKept context fs after := by
  cases built with
  | @produced content within transformed read below passed =>
      rw [read?_eq separates member kept] at read
      intro output isOutput
      by_cases same : place context.directory output =
          place context.directory (Path.join context.out within)
      · obtain rfl := separates.distinct other otherMember file member isOutput
          (output?_eq below) same
        have saved := FileSystem.content?_save before context.directory
          (Path.join context.out within) transformed.source.toByteArray
        rw [← same] at saved
        split at saved
        · exact Or.inr ⟨transformed, (expected_eq read below).trans passed, saved⟩
        · rw [saved]
          exact outputKept output isOutput
      · rw [(FileSystem.keeps_save _ _ _ _).contents _ same]
        exact outputKept output isOutput
  | _ => exact outputKept

theorem outputStands (built : Builds context before file after outcome)
    (kept : Keeps (context.outputPlaces sources) fs before)
    (outputKept : file.OutputKept context fs before)
    (truthful : file.OutputTruthful context fs) (written : ¬ outcome.IsUnwritten) :
    file.OutputStands context fs after := by
  have same := read?_eq separates member kept
  intro output transformed isOutput isExpected
  cases built with
  | unreadable unread =>
      rw [same] at unread
      simp only [expected, unread] at isExpected
      cases isExpected
  | outside read outside =>
      rw [same] at read
      simp only [expected, read, outside] at isExpected
      cases isExpected
  | unchanged read below cached =>
      rw [same] at read
      obtain ⟨remembered, bytes, stands⟩ := remembered?_of_cached? read cached
      rw [output?_eq below] at isOutput
      cases isOutput
      have holds := FileSystem.content?_of_read? stands
      rw [stands]
      rcases outputKept _ (output?_eq below) with old | ⟨result, isResult, holdsResult⟩
      · rw [old] at holds
        rw [truthful _ _ _ _ remembered (output?_eq below) isExpected holds]
      · rw [isExpected] at isResult
        cases isResult
        rw [← holds, holdsResult]
  | refused read below failed =>
      rw [same] at read
      rw [expected_eq read below, failed] at isExpected
      cases isExpected
  | produced read below passed =>
      rw [same] at read
      rw [expected_eq read below, passed] at isExpected
      cases isExpected
      rw [output?_eq below] at isOutput
      cases isOutput
      exact FileSystem.read?_save (FileOutcome.succeeded_of_written written)

/-- An output that stands outlives the building of other files, and of its own once more. -/
theorem read?_output (built : Builds context before file after outcome)
    (otherMember : other ∈ sources) (kept : Keeps (context.outputPlaces sources) fs before)
    {output : String} {transformed : Transformed} (isOutput : other.output? context = some output)
    (isExpected : other.expected context fs = .ok transformed)
    (stands : before.read? context.directory output = some transformed.source.toByteArray) :
    after.read? context.directory output = some transformed.source.toByteArray := by
  cases built with
  | @produced content within result read below passed =>
      rw [read?_eq separates member kept] at read
      by_cases same : place context.directory output =
          place context.directory (Path.join context.out within)
      · obtain rfl := separates.distinct other otherMember file member isOutput
          (output?_eq below) same
        rw [expected_eq read below, passed] at isExpected
        cases isExpected
        rw [output?_eq below] at isOutput
        cases isOutput
        exact FileSystem.read?_save_same stands
      · exact (FileSystem.keeps_save _ _ _ _).read? same stands
  | _ => exact stands

end SourceFile.Builds

namespace Build

variable {context : BuildContext} {sources : List SourceFile} {fs : FileSystem}

theorem keeps_files (context : BuildContext) (fs : FileSystem) (sources : List SourceFile) :
    Keeps (context.outputPlaces sources) fs (files context fs sources).1 := by
  have anything : ∀ outcome ∈ (files context fs sources).2.1, (fun _ => True) outcome :=
    fun _ _ => trivial
  refine files_invariant (Keeps (context.outputPlaces sources) fs) ?_ anything (.refl _ _)
  intro file member before after outcome kept built _
  exact kept.trans (built.keeps member)

/-- What holds all through a build: only outputs are written, and only with what the pass
gives. -/
structure SourcesKept (context : BuildContext) (fs : FileSystem) (sources : List SourceFile)
    (now : FileSystem) : Prop where
  keeps : Keeps (context.outputPlaces sources) fs now
  outputs : ∀ file ∈ sources, file.OutputKept context fs now

theorem SourcesKept.refl (context : BuildContext) (fs : FileSystem)
    (sources : List SourceFile) : SourcesKept context fs sources fs :=
  ⟨.refl _ _, fun _ _ _ _ => Or.inl rfl⟩

theorem SourcesKept.step {before after : FileSystem} {file : SourceFile} {outcome : FileOutcome}
    (kept : SourcesKept context fs sources before) (separates : context.Separates fs sources)
    (member : file ∈ sources) (built : SourceFile.Builds context before file after outcome) :
    SourcesKept context fs sources after :=
  ⟨kept.keeps.trans (built.keeps member), fun other otherMember =>
    built.outputKept separates member otherMember kept.keeps (kept.outputs other otherMember)⟩

theorem sourcesKept_files (separates : context.Separates fs sources) :
    SourcesKept context fs sources (files context fs sources).1 := by
  have anything : ∀ outcome ∈ (files context fs sources).2.1, (fun _ => True) outcome :=
    fun _ _ => trivial
  refine files_invariant (SourcesKept context fs sources) ?_ anything (.refl _ _ _)
  intro file member before after outcome kept built _
  exact kept.step separates member built

def expectedRepositories (context : BuildContext) (fs : FileSystem) (file : SourceFile) :
    List Repository :=
  match file.expected context fs with
  | .ok transformed => transformed.repositories
  | .error _ => []

def isRefused (context : BuildContext) (fs : FileSystem) (file : SourceFile) : Bool :=
  match file.expected context fs with
  | .ok _ => false
  | .error _ => true

theorem reports_totals {outcomes : List FileOutcome}
    (reports : List.Forall₂ (fun file outcome => outcome.Reports context fs file) sources
      outcomes) :
    repositories outcomes = sources.flatMap (expectedRepositories context fs) ∧
      outcomes.countP FileOutcome.isFailed = sources.countP (isRefused context fs) ∧
      outcomes.length = sources.length := by
  induction reports with
  | nil => exact ⟨rfl, rfl, rfl⟩
  | @cons file outcome _ _ head _ inductionHypothesis =>
      obtain ⟨sameRepositories, sameFailures, sameLength⟩ := inductionHypothesis
      have headRepositories : outcome.repositories = expectedRepositories context fs file := by
        unfold FileOutcome.repositories expectedRepositories
        rcases head.cases with ⟨_, result, expected⟩ | ⟨_, _, result, expected⟩ <;>
          rw [result, expected]
      have headFailed : outcome.isFailed = isRefused context fs file := by
        unfold FileOutcome.isFailed isRefused
        rcases head.cases with ⟨_, result, expected⟩ | ⟨_, _, result, expected⟩ <;>
          rw [result, expected]
      refine ⟨?_, ?_, ?_⟩
      · rw [List.flatMap_cons, ← sameRepositories, ← headRepositories]
        rfl
      · rw [List.countP_cons, List.countP_cons, sameFailures, headFailed]
      · rw [List.length_cons, List.length_cons, sameLength]

/-- The outcomes of a build are what its files should come to. -/
theorem files_report (separates : context.Separates fs sources)
    (truthful : ∀ file ∈ sources, file.RepositoriesTruthful context fs)
    (written : ∀ outcome ∈ (files context fs sources).2.1, ¬ outcome.IsUnwritten) :
    List.Forall₂ (fun file outcome => outcome.Reports context fs file) sources
      (files context fs sources).2.1 := by
  refine files_results (Keeps (context.outputPlaces sources) fs)
    (fun file outcome _ => outcome.Reports context fs file) ?_ ?_ written (.refl _ _)
  · intro file member before after outcome kept built isWritten
    exact ⟨kept.trans (built.keeps member),
      built.reports (SourceFile.Builds.read?_eq separates member kept) (truthful file member)
        isWritten⟩
  · exact fun _ _ _ _ _ _ _ _ _ _ _ reports => reports

/-- A build in which no file fails has files that the pass accepts. -/
theorem accepted_of_reports {outcomes : List FileOutcome}
    (reports : List.Forall₂ (fun file outcome => outcome.Reports context fs file) sources
      outcomes)
    (clear : outcomes.countP FileOutcome.isFailed = 0) :
    ∀ file ∈ sources, ∃ transformed, file.expected context fs = .ok transformed := by
  intro file member
  rw [(reports_totals reports).2.1, List.countP_eq_zero] at clear
  have kept := clear file member
  unfold isRefused at kept
  split at kept
  · next transformed isExpected => exact ⟨transformed, isExpected⟩
  · exact absurd rfl kept

/-- The outputs of a build are those of the pass. -/
theorem files_output (separates : context.Separates fs sources)
    (truthful : ∀ file ∈ sources, file.OutputTruthful context fs)
    (written : ∀ outcome ∈ (files context fs sources).2.1, ¬ outcome.IsUnwritten) :
    ∀ file ∈ sources, file.OutputStands context fs (files context fs sources).1 := by
  have results := files_results (SourcesKept context fs sources)
    (fun file _ now => file.OutputStands context fs now ∧ True) ?_ ?_ written
    (.refl context fs sources)
  · exact ((List.forall₂_and_left _ _).mp results).1
  · intro file member before after outcome kept built isWritten
    exact ⟨kept.step separates member built,
      built.outputStands separates member kept.keeps (kept.outputs file member)
        (truthful file member) isWritten, trivial⟩
  · rintro file member other otherMember before after outcome otherOutcome kept built _ ⟨stands, _⟩
    refine ⟨fun output transformed isOutput isExpected => ?_, trivial⟩
    exact built.read?_output separates otherMember member kept.keeps isOutput isExpected
      (stands output transformed isOutput isExpected)

end Build

end SourceQuote

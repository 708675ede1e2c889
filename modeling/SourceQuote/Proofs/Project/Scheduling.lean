import SourceQuote.Proofs.Containers.Sorting
import SourceQuote.Proofs.FileSystem.Merging
import SourceQuote.Proofs.Project.Publication
import SourceQuote.Proofs.Project.Routes
import Mathlib.Data.List.Nodup
import Mathlib.Logic.Relation

/-!
Contract: building files in parallel.

Owns: the steps that building a file takes, schedules in which workers take the steps of different
files in any order, when a build does not depend on its schedule, and two builds that do.

A worker reads a file, asks the cache and whether the output stands, makes the directories above
the output, and writes it. Each of these is one step on the file system that all workers share.
At every point of a schedule each file has come as far as it would have come alone, and the file
system is the merge of what each file would have left alone. That determines the end.
-/

namespace SourceQuote

open SourceQuote.FileSystem
open Relation (ReflTransGen)

/-! ## Steps -/

/-- How far the building of a file has come. -/
inductive Stage where
  | waiting
  /-- The file was read. -/
  | read (content : ByteArray)
  /-- The cache does not stand in for the file, and the pass accepts it. -/
  | passed (within : String) (content : ByteArray) (transformed : Transformed)
  /-- The directories above the output are made. -/
  | prepared (within : String) (content : ByteArray) (transformed : Transformed)
  | done (outcome : FileOutcome)

namespace Stage

def outcome? : Stage → Option FileOutcome
  | .done outcome => some outcome
  | _ => none

def isActive : Stage → Bool
  | .waiting => false
  | .done _ => false
  | _ => true

def remaining : Stage → Nat
  | .waiting => 4
  | .read _ => 3
  | .passed .. => 2
  | .prepared .. => 1
  | .done _ => 0

end Stage

namespace SourceFile

section Steps

variable (context : BuildContext) (fs : FileSystem) (file : SourceFile)

def reading : Stage :=
  match fs.read? context.directory file.path with
  | none => .done ⟨file.relative, "", .error .file⟩
  | some content => .read content

/-- Asks the cache and whether the output stands, and passes the file if it has to be. -/
def asking (content : ByteArray) : Stage :=
  let contentHash := Sha256.hexDigest content
  match Path.below? file.path context.root with
  | none => .done ⟨file.relative, contentHash, .error (.build (.outsideRoot file.relative))⟩
  | some within =>
      match file.cached? context fs (Path.join context.out within) contentHash with
      | some entry =>
          .done ⟨file.relative, contentHash, .ok (.unchanged, entry.repositories)⟩
      | none =>
          match file.transformed context within content with
          | .error error => .done ⟨file.relative, contentHash, .error error⟩
          | .ok transformed => .passed within content transformed

def preparing (within : String) (content : ByteArray) (transformed : Transformed) :
    FileSystem × Stage :=
  let made := fs.createDirectory context.directory (Path.parent (Path.join context.out within))
  (made.fs,
    if made.succeeded then .prepared within content transformed
    else .done ⟨file.relative, Sha256.hexDigest content, .error .file⟩)

def writing (within : String) (content : ByteArray) (transformed : Transformed) :
    FileSystem × Stage :=
  match fs.write? context.directory (Path.join context.out within)
      transformed.source.toByteArray with
  | some written =>
      (written, .done ⟨file.relative, Sha256.hexDigest content,
        .ok (statusOf transformed, transformed.repositories)⟩)
  | none => (fs, .done ⟨file.relative, Sha256.hexDigest content, .error .file⟩)

def advance : Stage → FileSystem × Stage
  | .waiting => (fs, file.reading context fs)
  | .read content => (fs, file.asking context fs content)
  | .passed within content transformed => file.preparing context fs within content transformed
  | .prepared within content transformed => file.writing context fs within content transformed
  | .done outcome => (fs, .done outcome)

end Steps

/-- Whether building a file alone, in a file system that nothing else changes, comes to a
stage. -/
inductive Alone (context : BuildContext) (fs : FileSystem) (file : SourceFile) : Stage → Prop
  | waiting : Alone context fs file .waiting
  | read {content : ByteArray} (read : fs.read? context.directory file.path = some content) :
      Alone context fs file (.read content)
  | passed {within : String} {content : ByteArray} {transformed : Transformed}
      (read : fs.read? context.directory file.path = some content)
      (below : Path.below? file.path context.root = some within)
      (uncached : file.cached? context fs (Path.join context.out within)
        (Sha256.hexDigest content) = none)
      (passed : file.transformed context within content = .ok transformed) :
      Alone context fs file (.passed within content transformed)
  | prepared {within : String} {content : ByteArray} {transformed : Transformed}
      (read : fs.read? context.directory file.path = some content)
      (below : Path.below? file.path context.root = some within)
      (uncached : file.cached? context fs (Path.join context.out within)
        (Sha256.hexDigest content) = none)
      (passed : file.transformed context within content = .ok transformed)
      (made : (fs.createDirectory context.directory
        (Path.parent (Path.join context.out within))).succeeded = true) :
      Alone context fs file (.prepared within content transformed)
  | done : Alone context fs file (.done (file.build context fs).2.1)

/-- What building a file alone has left at a stage. -/
def left (context : BuildContext) (fs : FileSystem) (file : SourceFile) : Stage → FileSystem
  | .prepared within _ _ =>
      (fs.createDirectory context.directory (Path.parent (Path.join context.out within))).fs
  | .done _ => (file.build context fs).1
  | _ => fs

variable {context : BuildContext} {fs : FileSystem} {file : SourceFile} {stage : Stage}

@[simp] theorem left_waiting : file.left context fs .waiting = fs :=
  rfl

@[simp] theorem left_read (content : ByteArray) : file.left context fs (.read content) = fs :=
  rfl

@[simp] theorem left_passed (within : String) (content : ByteArray) (transformed : Transformed) :
    file.left context fs (.passed within content transformed) = fs :=
  rfl

@[simp] theorem left_prepared (within : String) (content : ByteArray)
    (transformed : Transformed) :
    file.left context fs (.prepared within content transformed) =
      (fs.createDirectory context.directory
        (Path.parent (Path.join context.out within))).fs :=
  rfl

@[simp] theorem left_done (outcome : FileOutcome) :
    file.left context fs (.done outcome) = (file.build context fs).1 :=
  rfl

theorem remaining_advance (context : BuildContext) (fs : FileSystem) (file : SourceFile)
    (unfinished : stage.outcome? = none) :
    (file.advance context fs stage).2.remaining < stage.remaining := by
  cases stage with
  | waiting =>
      rw [advance, reading]
      split <;> simp [Stage.remaining]
  | read content =>
      rw [advance, asking]
      split
      · simp [Stage.remaining]
      · split
        · simp [Stage.remaining]
        · split <;> simp [Stage.remaining]
  | passed within content transformed =>
      rw [advance, preparing]
      dsimp only
      split <;> simp [Stage.remaining]
  | prepared within content transformed =>
      rw [advance, writing]
      split <;> simp [Stage.remaining]
  | done outcome => cases unfinished

theorem alone_done {after : FileSystem} {outcome : FileOutcome}
    (leaves : (file.build context fs).1 = after)
    (reports : (file.build context fs).2.1 = outcome) :
    file.Alone context fs (.done outcome) ∧ after = file.left context fs (.done outcome) := by
  rw [← reports]
  exact ⟨.done, leaves.symm⟩

theorem build_of_passed {within : String} {content : ByteArray} {transformed : Transformed}
    (read : fs.read? context.directory file.path = some content)
    (below : Path.below? file.path context.root = some within)
    (uncached : file.cached? context fs (Path.join context.out within)
      (Sha256.hexDigest content) = none)
    (passed : file.transformed context within content = .ok transformed) :
    (file.build context fs).1 = (fs.save context.directory (Path.join context.out within)
        transformed.source.toByteArray).fs ∧
      (file.build context fs).2.1 = ⟨file.relative, Sha256.hexDigest content,
        if (fs.save context.directory (Path.join context.out within)
          transformed.source.toByteArray).succeeded
        then .ok (statusOf transformed, transformed.repositories) else .error .file⟩ := by
  simp only [build, read, below, uncached, produce, passed, and_self]

/-- A file that is built alone stays so with its next step. -/
theorem Alone.advance (alone : file.Alone context fs stage) :
    file.Alone context fs (file.advance context (file.left context fs stage) stage).2 ∧
      (file.advance context (file.left context fs stage) stage).1 =
        file.left context fs (file.advance context (file.left context fs stage) stage).2 := by
  cases alone with
  | waiting =>
      rw [left_waiting, SourceFile.advance, reading]
      dsimp only
      split
      · next unread => exact alone_done (by rw [build, unread]) (by rw [build, unread])
      · next content read => exact ⟨.read read, rfl⟩
  | @read content read =>
      rw [left_read, SourceFile.advance, asking]
      dsimp only
      split
      · next outside =>
          refine alone_done ?_ ?_ <;> simp only [build, read, outside]
      · next within below =>
          split
          · next entry cached =>
              refine alone_done ?_ ?_ <;> simp only [build, read, below, cached]
          · next uncached =>
              split
              · next error failed =>
                  refine alone_done ?_ ?_ <;>
                    simp only [build, read, below, uncached, produce, failed]
              · next transformed passed => exact ⟨.passed read below uncached passed, rfl⟩
  | @passed within content transformed read below uncached passed =>
      rw [left_passed, SourceFile.advance, preparing]
      dsimp only
      split
      · next made =>
          refine ⟨.prepared read below uncached passed made, ?_⟩
          rw [left_prepared]
      · next failed =>
          obtain ⟨leaves, reports⟩ := build_of_passed read below uncached passed
          rw [save_of_unmade (by simpa using failed)] at leaves reports
          rw [if_neg failed] at reports
          exact alone_done leaves reports
  | @prepared within content transformed read below uncached passed made =>
      obtain ⟨leaves, reports⟩ := build_of_passed read below uncached passed
      rw [save_of_made made] at leaves reports
      rw [left_prepared, SourceFile.advance, writing]
      split
      · next written wrote =>
          rw [wrote] at leaves reports
          dsimp only
          exact alone_done leaves reports
      · next failed =>
          rw [failed] at leaves reports
          dsimp only at leaves reports ⊢
          exact alone_done leaves reports
  | done => exact ⟨.done, rfl⟩

/-- What building a file alone can have left: what there was, what making the directories above
the output leaves, or that with the output. -/
theorem Alone.left_cases (alone : file.Alone context fs stage) :
    file.left context fs stage = fs ∨
      ∃ output, file.output? context = some output ∧
        (file.left context fs stage =
            (fs.createDirectory context.directory (Path.parent output)).fs ∨
          (fs.createDirectory context.directory (Path.parent output)).succeeded = true ∧
            isDirectory (fs.createDirectory context.directory (Path.parent output)).fs
              (place context.directory output) = false ∧
            ∃ content, file.left context fs stage =
              put (fs.createDirectory context.directory (Path.parent output)).fs
                (place context.directory output) (.file content)) := by
  cases alone with
  | waiting => exact Or.inl rfl
  | read => exact Or.inl rfl
  | passed => exact Or.inl rfl
  | prepared read below uncached passed made =>
      exact Or.inr ⟨_, output?_eq below, Or.inl (left_prepared ..)⟩
  | done =>
      rw [left_done]
      have built := file.builds_build context fs
      generalize (file.build context fs).1 = after at built ⊢
      generalize (file.build context fs).2.1 = outcome at built
      cases built with
      | produced read below passed =>
          refine Or.inr ⟨_, output?_eq below, ?_⟩
          cases made : (fs.createDirectory context.directory
              (Path.parent (Path.join context.out _))).succeeded with
          | false => exact Or.inl (by rw [save_of_unmade made])
          | true =>
              rw [save_of_made made]
              split
              · next written wrote =>
                  obtain ⟨_, free, isWritten⟩ := write?_eq_some wrote
                  exact Or.inr ⟨rfl, free, _, isWritten⟩
              · dsimp only
                exact Or.inl rfl
      | _ => exact Or.inl rfl

/-- A directory that building a file alone has made stands above its output. -/
theorem Alone.mem_stations (alone : file.Alone context fs stage) {location : Location}
    (isDirectory : (file.left context fs stage).isDirectory location = true)
    (new : fs.isDirectory location = false) :
    ∃ output, file.output? context = some output ∧
      location ∈ stations context.directory (Path.parent output) := by
  have created : ∀ {output}, FileSystem.isDirectory
      (fs.createDirectory context.directory (Path.parent output)).fs location = true →
      location ∈ stations context.directory (Path.parent output) := by
    intro output made
    rw [isDirectory_eq_true_iff, entryAt_createDirectory] at made
    split at made
    · next member => exact mem_stations_of_mem_made member
    · rw [isDirectory_eq_true_iff.mpr made] at new
      cases new
  rcases alone.left_cases with unchanged | ⟨output, isOutput, made | ⟨_, free, content, written⟩⟩
  · rw [unchanged, new] at isDirectory
    cases isDirectory
  · rw [made] at isDirectory
    exact ⟨output, isOutput, created isDirectory⟩
  · refine ⟨output, isOutput, created ?_⟩
    rw [written, isDirectory_eq_true_iff, (patches_put free _).entries] at isDirectory
    split at isDirectory
    · cases isDirectory
    · exact isDirectory_eq_true_iff.mpr isDirectory

/-- A file that building a file alone has changed is its output, and does not stand on the way
to it. -/
theorem Alone.eq_place (alone : file.Alone context fs stage) {location : Location}
    (changed : (file.left context fs stage).content? location ≠ fs.content? location) :
    ∃ output, file.output? context = some output ∧ location = place context.directory output ∧
      location ∉ stations context.directory (Path.parent output) := by
  have kept : ∀ path, content? (fs.createDirectory context.directory path).fs location =
      fs.content? location :=
    fun path => (keeps_createDirectory fs context.directory path).contents location
      (Set.notMem_empty _)
  rcases alone.left_cases with unchanged | ⟨output, isOutput, made | ⟨made, free, content, written⟩⟩
  · exact absurd (by rw [unchanged]) changed
  · exact absurd (by rw [made, kept]) changed
  · have here : location = place context.directory output := by
      by_contra elsewhere
      refine changed ?_
      rw [written, (keeps_put_file free content).contents location elsewhere, kept]
    refine ⟨output, isOutput, here, fun onWay => ?_⟩
    rw [← here, isDirectory_of_created made onWay] at free
    cases free

theorem Alone.keeps (alone : file.Alone context fs stage) {sources : List SourceFile}
    (member : file ∈ sources) :
    Keeps (context.outputPlaces sources) fs (file.left context fs stage) where
  directories location isDirectory := by
    rcases alone.left_cases with unchanged | ⟨output, isOutput, made | ⟨_, free, _, written⟩⟩
    · rwa [unchanged]
    · rw [made]
      exact (keeps_createDirectory _ _ _).directories location isDirectory
    · rw [written]
      exact (keeps_put_file free _).directories location
        ((keeps_createDirectory _ _ _).directories location isDirectory)
  contents location outside := by
    by_contra changed
    obtain ⟨output, isOutput, here, _⟩ := alone.eq_place changed
    exact outside ⟨file, member, output, isOutput, here.symm⟩

end SourceFile

/-! ## Schedules -/

/-- The files of a build, each with how far it has come, and the file system they share. -/
structure Schedule where
  fs : FileSystem
  tasks : List (SourceFile × Stage)

namespace Schedule

def start (fs : FileSystem) (sources : List SourceFile) : Schedule :=
  ⟨fs, sources.map fun file => (file, .waiting)⟩

def outcomes (schedule : Schedule) : List FileOutcome :=
  schedule.tasks.filterMap fun task => task.2.outcome?

def IsFinished (schedule : Schedule) : Prop :=
  ∀ task ∈ schedule.tasks, task.2.outcome?.isSome = true

def active (tasks : List (SourceFile × Stage)) : Nat :=
  tasks.countP fun task => task.2.isActive

/-- A step of some worker. A file that waits is taken up only if a worker is free; there is always
at least one worker. -/
inductive Step (context : BuildContext) (workers : Nat) : Schedule → Schedule → Prop
  | advance {fs : FileSystem} {front back : List (SourceFile × Stage)} {file : SourceFile}
      {stage : Stage} (unfinished : stage.outcome? = none)
      (free : stage = .waiting → active (front ++ back) < max workers 1) :
      Step context workers ⟨fs, front ++ (file, stage) :: back⟩
        ⟨(file.advance context fs stage).1,
          front ++ (file, (file.advance context fs stage).2) :: back⟩

/-- What holds at every point of a schedule: each file has come as far as it would alone, and the
file system is the merge of what the files would have left alone. -/
structure Agrees (context : BuildContext) (fs : FileSystem) (sources : List SourceFile)
    (schedule : Schedule) : Prop where
  files : schedule.tasks.map Prod.fst = sources
  alone : ∀ task ∈ schedule.tasks, task.1.Alone context fs task.2
  merges : Merges fs (schedule.tasks.map fun task => task.1.left context fs task.2) schedule.fs

section Steps

variable {context : BuildContext} {origin : FileSystem} {sources : List SourceFile}
  {now : FileSystem} {front back : List (SourceFile × Stage)} {file : SourceFile} {stage : Stage}

theorem Agrees.start (context : BuildContext) (fs : FileSystem) (sources : List SourceFile) :
    Agrees context fs sources (start fs sources) where
  files := by simp [Schedule.start, Function.comp_def]
  alone := by
    intro task member
    obtain ⟨file, _, rfl⟩ := List.mem_map.mp member
    exact .waiting
  merges := by
    refine .refl fun part member => ?_
    simp only [Schedule.start, List.map_map, List.mem_map] at member
    obtain ⟨file, _, rfl⟩ := member
    rfl

/-- What makes a step of a file among others as good as a step of the file alone: it comes to the
same stage, and changes the file system alike, in a way that contradicts none of the others. -/
def Advances (context : BuildContext) (origin now : FileSystem)
    (others : List (SourceFile × Stage)) (file : SourceFile) (stage : Stage) : Prop :=
  ∃ patch,
    (file.advance context now stage).2 =
        (file.advance context (file.left context origin stage) stage).2 ∧
      Patches patch (file.left context origin stage)
        (file.advance context (file.left context origin stage) stage).1 ∧
      Patches patch now (file.advance context now stage).1 ∧
      ∀ task ∈ others, ∀ location entry, patch location = some entry →
        entry? (task.1.left context origin task.2) location = origin.entry? location ∨
          entry? (task.1.left context origin task.2) location = some entry

theorem Advances.of_same {others : List (SourceFile × Stage)}
    (sameStage : (file.advance context now stage).2 =
      (file.advance context (file.left context origin stage) stage).2)
    (unchanged : ∀ fs, (file.advance context fs stage).1 = fs) :
    Advances context origin now others file stage := by
  refine ⟨fun _ => none, sameStage, ?_, ?_, fun _ _ _ _ spoken => by cases spoken⟩
  · rw [unchanged]
    exact .refl _
  · rw [unchanged]
    exact .refl _

variable (agrees : Agrees context origin sources ⟨now, front ++ (file, stage) :: back⟩)
include agrees

theorem Agrees.step (advances : Advances context origin now (front ++ back) file stage) :
    Agrees context origin sources ⟨(file.advance context now stage).1,
      front ++ (file, (file.advance context now stage).2) :: back⟩ := by
  obtain ⟨patch, sameStage, patched, wholePatched, compatible⟩ := advances
  obtain ⟨alone, leaves⟩ := (agrees.alone (file, stage) (by simp)).advance
  rw [leaves, ← sameStage] at patched
  rw [← sameStage] at alone
  refine ⟨?_, ?_, ?_⟩
  · simpa using agrees.files
  · intro task member
    rcases mem_append_cons.mp member with rfl | isOther
    · exact alone
    · exact agrees.alone task (mem_append_cons.mpr (Or.inr isOther))
  · have merges := agrees.merges
    rw [List.map_append, List.map_cons] at merges ⊢
    refine merges.patch patched wholePatched fun part member location entry spoken => ?_
    rw [← List.map_append] at member
    obtain ⟨task, isTask, rfl⟩ := List.mem_map.mp member
    exact compatible task isTask location entry spoken

theorem Agrees.mem_sources {task : SourceFile × Stage}
    (member : task ∈ front ++ (file, stage) :: back) : task.1 ∈ sources := by
  rw [← agrees.files]
  exact List.mem_map_of_mem member

theorem Agrees.ne_file (distinct : sources.Nodup) {task : SourceFile × Stage}
    (member : task ∈ front ++ back) : task.1 ≠ file := by
  rw [← agrees.files, List.map_append, List.map_cons, List.perm_middle.nodup_iff,
    List.nodup_cons, ← List.map_append] at distinct
  exact fun same => distinct.1 (List.mem_map.mpr ⟨task, member, same⟩)

theorem Agrees.keeps : Keeps (context.outputPlaces sources) origin now := by
  refine agrees.merges.keeps fun part member => ?_
  obtain ⟨task, isTask, rfl⟩ := List.mem_map.mp member
  exact (agrees.alone task isTask).keeps (agrees.mem_sources isTask)

theorem Agrees.file_mem : file ∈ sources := by
  have member : (file, stage) ∈ front ++ (file, stage) :: back := by simp
  exact agrees.mem_sources member

theorem Agrees.directories_left {location : Location}
    (isDirectory : (file.left context origin stage).isDirectory location = true) :
    now.isDirectory location = true :=
  agrees.merges.isDirectory_of_part (List.mem_map.mpr ⟨(file, stage), by simp, rfl⟩)
    (agrees.keeps.directories location) isDirectory

variable (independent : context.Independent origin sources)
include independent

/-- No file has changed what stands on the way to an output. -/
theorem Agrees.content?_of_mem_stations {output : String}
    (isOutput : file.output? context = some output) {location : Location}
    (onWay : location ∈ stations context.directory (Path.parent output))
    {task : SourceFile × Stage} (member : task ∈ front ++ (file, stage) :: back) :
    content? (task.1.left context origin task.2) location = origin.content? location := by
  by_contra changed
  obtain ⟨own, isOwn, rfl, offWay⟩ := (agrees.alone task member).eq_place changed
  exact offWay (independent.crossing file agrees.file_mem task.1 (agrees.mem_sources member)
    isOutput isOwn onWay)

/-- No other file has changed the output of a file. -/
theorem Agrees.content?_of_other (distinct : sources.Nodup) {output : String}
    (isOutput : file.output? context = some output) {task : SourceFile × Stage}
    (member : task ∈ front ++ back) :
    content? (task.1.left context origin task.2) (place context.directory output) =
      origin.content? (place context.directory output) := by
  have isTask : task ∈ front ++ (file, stage) :: back := mem_append_cons.mpr (Or.inr member)
  by_contra changed
  obtain ⟨own, isOwn, same, _⟩ := (agrees.alone task isTask).eq_place changed
  exact agrees.ne_file distinct member (independent.separates.distinct task.1
    (agrees.mem_sources isTask) file agrees.file_mem isOwn isOutput same.symm)

end Steps

section Stages

variable {context : BuildContext} {origin : FileSystem} {sources : List SourceFile}
  {now : FileSystem} {front back : List (SourceFile × Stage)} {file : SourceFile}
  (independent : context.Independent origin sources)
include independent

/-- Reading. -/
theorem Agrees.advances_waiting
    (agrees : Agrees context origin sources ⟨now, front ++ (file, .waiting) :: back⟩) :
    Advances context origin now (front ++ back) file .waiting := by
  have same : now.read? context.directory file.path = origin.read? context.directory file.path :=
    SourceFile.Builds.read?_eq independent.separates agrees.file_mem agrees.keeps
  refine .of_same ?_ fun fs => rfl
  rw [SourceFile.left_waiting, SourceFile.advance, SourceFile.advance, SourceFile.reading, same,
    SourceFile.reading]

variable (distinct : sources.Nodup)
include distinct

/-- Whether the output of a file that the cache knows stands does not depend on the other
files. -/
theorem Agrees.read?_output {content : ByteArray}
    (agrees : Agrees context origin sources ⟨now, front ++ (file, .read content) :: back⟩)
    {output : String} (isOutput : file.output? context = some output) {entry : CachedFile}
    (remembered : file.remembered? context origin = some entry) :
    now.read? context.directory output = origin.read? context.directory output := by
  have sameContent : now.content? (place context.directory output) =
      origin.content? (place context.directory output) := by
    refine agrees.merges.content?_eq fun part member => ?_
    obtain ⟨task, isTask, rfl⟩ := List.mem_map.mp member
    rcases mem_append_cons.mp isTask with rfl | isOther
    · rfl
    · exact agrees.content?_of_other independent distinct isOutput isOther
  refine Option.ext fun bytes => ⟨fun read => ?_, fun read => ?_⟩
  · obtain ⟨reached, resolved, holds⟩ := Option.bind_eq_some_iff.mp read
    obtain rfl := eq_place_of_resolve? resolved
    have free : now.isDirectory (place context.directory output) = false := by
      rw [isDirectory, content?_eq_some_iff.mp holds]
    rw [sameContent] at holds
    have resolvedBefore := resolve?_of_above
      (independent.grounded file agrees.file_mem isOutput)
      (independent.remembered file agrees.file_mem isOutput remembered holds) resolved free
    exact Option.bind_eq_some_iff.mpr ⟨_, resolvedBefore, holds⟩
  · obtain ⟨reached, resolved, holds⟩ := Option.bind_eq_some_iff.mp read
    obtain rfl := eq_place_of_resolve? resolved
    rw [← sameContent] at holds
    exact Option.bind_eq_some_iff.mpr
      ⟨_, resolve?_mono agrees.keeps.directories resolved, holds⟩

/-- Asking the cache. -/
theorem Agrees.advances_read {content : ByteArray}
    (agrees : Agrees context origin sources ⟨now, front ++ (file, .read content) :: back⟩) :
    Advances context origin now (front ++ back) file (.read content) := by
  have read : origin.read? context.directory file.path = some content := by
    cases agrees.alone (file, .read content) (by simp) with
    | read read => exact read
  have sameCached : ∀ {within}, Path.below? file.path context.root = some within →
      file.cached? context now (Path.join context.out within) (Sha256.hexDigest content) =
        file.cached? context origin (Path.join context.out within)
          (Sha256.hexDigest content) := by
    intro within below
    have known : file.remembered? context origin = context.cache.bind fun cache =>
        cache.fresh? file.relative (Sha256.hexDigest content) := by
      rw [SourceFile.remembered?, read]
      rfl
    rw [SourceFile.cached?, SourceFile.cached?, ← known]
    cases remembered : file.remembered? context origin with
    | none => rfl
    | some entry =>
        rw [isFile, isFile, agrees.read?_output independent distinct
          (SourceFile.output?_eq below) remembered]
  refine .of_same ?_ fun fs => rfl
  rw [SourceFile.left_read, SourceFile.advance, SourceFile.advance, SourceFile.asking,
    SourceFile.asking]
  dsimp only
  split
  · rfl
  · next within below => rw [sameCached below]

omit distinct in
/-- Making directories. -/
theorem Agrees.advances_passed {within : String} {content : ByteArray} {transformed : Transformed}
    (agrees : Agrees context origin sources
      ⟨now, front ++ (file, .passed within content transformed) :: back⟩) :
    Advances context origin now (front ++ back) file (.passed within content transformed) := by
  have isOutput : file.output? context = some (Path.join context.out within) := by
    cases agrees.alone (file, .passed within content transformed) (by simp) with
    | passed read below uncached passed => exact SourceFile.output?_eq below
  have unchanged : ∀ location ∈ stations context.directory
      (Path.parent (Path.join context.out within)),
      now.content? location = origin.content? location := by
    intro location onWay
    refine agrees.merges.content?_eq fun part member => ?_
    obtain ⟨task, isTask, rfl⟩ := List.mem_map.mp member
    exact agrees.content?_of_mem_stations independent isOutput onWay isTask
  obtain ⟨sameMade, sameSuccess⟩ := createDirectory_congr unchanged
  refine ⟨fun location => if location ∈ origin.made context.directory
    (Path.parent (Path.join context.out within)) then some .directory else none, ?_, ?_, ?_, ?_⟩
  · rw [SourceFile.left_passed, SourceFile.advance, SourceFile.advance, SourceFile.preparing,
      SourceFile.preparing]
    dsimp only
    rw [sameSuccess]
  · rw [SourceFile.left_passed, SourceFile.advance, SourceFile.preparing]
    dsimp only
    exact patches_createDirectory origin context.directory
      (Path.parent (Path.join context.out within))
  · rw [SourceFile.advance, SourceFile.preparing, ← sameMade]
    dsimp only
    exact patches_createDirectory now context.directory
      (Path.parent (Path.join context.out within))
  · intro task member location entry spoken
    dsimp only at spoken
    split at spoken
    · next made =>
        cases spoken
        have isTask : task ∈ front ++ (file, .passed within content transformed) :: back :=
          mem_append_cons.mpr (Or.inr member)
        have sameContent := agrees.content?_of_mem_stations independent isOutput
          (mem_stations_of_mem_made made) isTask
        cases isDirectory : FileSystem.isDirectory (task.1.left context origin task.2) location with
        | true => exact Or.inr (isDirectory_eq_true_iff.mp isDirectory)
        | false =>
            refine Or.inl (entryAt_congr sameContent ?_)
            rw [isDirectory, eq_comm, Bool.eq_false_iff]
            intro stood
            have stands := ((agrees.alone task isTask).keeps
              (agrees.mem_sources isTask)).directories location stood
            rw [isDirectory] at stands
            cases stands
    · cases spoken

omit distinct in
/-- A directory stands at the output of a file only if it did before, or if it stands on the way
to the output. -/
theorem Agrees.isDirectory_of_task {stage : Stage}
    (agrees : Agrees context origin sources ⟨now, front ++ (file, stage) :: back⟩)
    {output : String} (isOutput : file.output? context = some output)
    (free : origin.isDirectory (place context.directory output) = false)
    (offWay : place context.directory output ∉
      stations context.directory (Path.parent output))
    {task : SourceFile × Stage} (member : task ∈ front ++ (file, stage) :: back) :
    isDirectory (task.1.left context origin task.2) (place context.directory output) = false := by
  rw [Bool.eq_false_iff]
  intro isDirectory
  obtain ⟨own, isOwn, onWay⟩ := (agrees.alone task member).mem_stations isDirectory free
  exact offWay (independent.crossing task.1 (agrees.mem_sources member) file agrees.file_mem
    isOwn isOutput onWay)

/-- Writing. -/
theorem Agrees.advances_prepared {within : String} {content : ByteArray}
    {transformed : Transformed}
    (agrees : Agrees context origin sources
      ⟨now, front ++ (file, .prepared within content transformed) :: back⟩) :
    Advances context origin now (front ++ back) file (.prepared within content transformed) := by
  obtain ⟨isOutput, made⟩ : file.output? context = some (Path.join context.out within) ∧
      (origin.createDirectory context.directory
        (Path.parent (Path.join context.out within))).succeeded = true := by
    cases agrees.alone (file, .prepared within content transformed) (by simp) with
    | prepared read below uncached passed made => exact ⟨SourceFile.output?_eq below, made⟩
  have above : ∀ station ∈ stations context.directory (Path.parent (Path.join context.out within)),
      isDirectory (origin.createDirectory context.directory
        (Path.parent (Path.join context.out within))).fs station = true :=
    fun station onWay => isDirectory_of_created made onWay
  have kept := (keeps_createDirectory origin context.directory
    (Path.parent (Path.join context.out within))).directories
  have shown : ∀ location, isDirectory (origin.createDirectory context.directory
      (Path.parent (Path.join context.out within))).fs location = true →
      now.isDirectory location = true :=
    fun location isDirectory => agrees.directories_left isDirectory
  unfold Advances
  rw [SourceFile.left_prepared, SourceFile.advance, SourceFile.advance, SourceFile.writing,
    SourceFile.writing]
  generalize (origin.createDirectory context.directory
    (Path.parent (Path.join context.out within))).fs = own at above kept shown ⊢
  cases wrote : own.write? context.directory (Path.join context.out within)
      transformed.source.toByteArray with
  | none =>
      have refused : now.write? context.directory (Path.join context.out within)
          transformed.source.toByteArray = none := by
        rw [Option.eq_none_iff_forall_ne_some]
        intro written wroteNow
        obtain ⟨resolved, free, _⟩ := write?_eq_some wroteNow
        have resolvedAlone := resolve?_of_above
          ((independent.grounded file agrees.file_mem isOutput).mono kept) above resolved free
        rw [write?_of_resolve? resolvedAlone] at wrote
        · cases wrote
        · rw [Bool.eq_false_iff]
          intro isDirectory
          rw [shown _ isDirectory] at free
          cases free
      rw [refused]
      exact ⟨fun _ => none, rfl, .refl _, .refl _, fun _ _ _ _ spoken => by cases spoken⟩
  | some written =>
      obtain ⟨resolved, free, rfl⟩ := write?_eq_some wrote
      have offWay : place context.directory (Path.join context.out within) ∉
          stations context.directory (Path.parent (Path.join context.out within)) := by
        intro onWay
        rw [above _ onWay] at free
        cases free
      have freeBefore : origin.isDirectory
          (place context.directory (Path.join context.out within)) = false := by
        rw [Bool.eq_false_iff]
        intro isDirectory
        rw [kept _ isDirectory] at free
        cases free
      have freeNow : now.isDirectory
          (place context.directory (Path.join context.out within)) = false := by
        rw [← freeBefore]
        refine agrees.merges.isDirectory_eq fun part member => ?_
        obtain ⟨task, isTask, rfl⟩ := List.mem_map.mp member
        rw [freeBefore]
        exact agrees.isDirectory_of_task independent isOutput freeBefore offWay isTask
      rw [write?_of_resolve? (resolve?_mono shown resolved) freeNow]
      refine ⟨_, rfl, patches_put free _, patches_put freeNow _, ?_⟩
      intro task member location entry spoken
      split at spoken
      · next here =>
          subst here
          have isTask : task ∈ front ++ (file, .prepared within content transformed) :: back :=
            mem_append_cons.mpr (Or.inr member)
          refine Or.inl (entryAt_congr
            (agrees.content?_of_other independent distinct isOutput member) ?_)
          rw [freeBefore, agrees.isDirectory_of_task independent isOutput freeBefore offWay isTask]
      · cases spoken

/-- One step of any worker keeps the agreement. -/
theorem Agrees.of_step {schedule next : Schedule} {workers : Nat}
    (agrees : Agrees context origin sources schedule)
    (steps : Step context workers schedule next) : Agrees context origin sources next := by
  cases steps with
  | @advance fs front back file stage unfinished free =>
      refine agrees.step ?_
      cases stage with
      | waiting => exact agrees.advances_waiting independent
      | read content => exact agrees.advances_read independent distinct
      | passed within content transformed => exact agrees.advances_passed independent
      | prepared within content transformed => exact agrees.advances_prepared independent distinct
      | done outcome => cases unfinished

/-- Every schedule agrees with the files alone. -/
theorem Agrees.of_steps {schedule : Schedule} {workers : Nat}
    (steps : ReflTransGen (Step context workers) (Schedule.start origin sources) schedule) :
    Agrees context origin sources schedule := by
  induction steps with
  | refl => exact .start context origin sources
  | tail _ last inductionHypothesis => exact inductionHypothesis.of_step independent distinct last

end Stages

/-! ## The end of a schedule -/

section Finishing

variable {context : BuildContext} {origin : FileSystem} {sources : List SourceFile}
  {workers : Nat}

theorem Agrees.tasks_eq {schedule : Schedule} (agrees : Agrees context origin sources schedule)
    (finished : schedule.IsFinished) :
    schedule.tasks = sources.map fun file => (file, .done (file.build context origin).2.1) := by
  rw [← agrees.files, List.map_map]
  refine (List.map_id _).symm.trans (List.map_congr_left fun task member => ?_)
  obtain ⟨file, stage⟩ := task
  have alone : file.Alone context origin stage := agrees.alone _ member
  cases alone with
  | done => rfl
  | _ => cases finished _ member

/-- Two finished schedules of the same files are the same. -/
theorem Agrees.unique {schedule other : Schedule} (agrees : Agrees context origin sources schedule)
    (otherAgrees : Agrees context origin sources other) (finished : schedule.IsFinished)
    (otherFinished : other.IsFinished) : schedule = other := by
  have sameTasks : schedule.tasks = other.tasks := by
    rw [agrees.tasks_eq finished, otherAgrees.tasks_eq otherFinished]
  have merges := agrees.merges
  rw [sameTasks] at merges
  obtain ⟨fs, tasks⟩ := schedule
  obtain ⟨otherFs, otherTasks⟩ := other
  obtain rfl : tasks = otherTasks := sameTasks
  obtain rfl : fs = otherFs := merges.unique otherAgrees.merges
  rfl

/-- While nobody else is at work, a file is built as if alone. -/
theorem steps_alone {front back : List (SourceFile × Stage)} {fs : FileSystem} {file : SourceFile}
    {stage : Stage} (idle : active (front ++ back) = 0) (alone : file.Alone context fs stage) :
    ReflTransGen (Step context workers)
      ⟨file.left context fs stage, front ++ (file, stage) :: back⟩
      ⟨(file.build context fs).1,
        front ++ (file, .done (file.build context fs).2.1) :: back⟩ := by
  induction left : stage.remaining using Nat.strongRecOn generalizing stage with
  | _ remaining inductionHypothesis =>
      cases unfinished : stage.outcome? with
      | some outcome =>
          cases alone with
          | done => exact .refl
          | _ => cases unfinished
      | none =>
          obtain ⟨nextAlone, leaves⟩ := alone.advance
          have fewer := SourceFile.remaining_advance context (file.left context fs stage) file
            unfinished
          rw [left] at fewer
          have first : Step context workers
              ⟨file.left context fs stage, front ++ (file, stage) :: back⟩ _ :=
            .advance unfinished fun _ => by omega
          rw [leaves] at first
          exact .head first (inductionHypothesis _ fewer nextAlone rfl)

/-- Building the files one after the other is a schedule for any number of workers. -/
theorem steps_files (context : BuildContext) (workers : Nat) (fs : FileSystem)
    (front : List (SourceFile × Stage)) (idle : active front = 0) (sources : List SourceFile) :
    ∃ ended, ReflTransGen (Step context workers)
        ⟨fs, front ++ sources.map fun file => (file, .waiting)⟩
        ⟨(Build.files context fs sources).1, front ++ ended⟩ ∧
      (∀ task ∈ ended, task.2.outcome?.isSome = true) ∧
      ended.filterMap (fun task => task.2.outcome?) = (Build.files context fs sources).2.1 := by
  induction sources generalizing fs front with
  | nil => exact ⟨[], .refl, nofun, rfl⟩
  | cons file rest inductionHypothesis =>
      have waits : active (rest.map fun file => (file, .waiting)) = 0 := by
        simp [active, Stage.isActive]
      have others : active (front ++ rest.map fun file => (file, .waiting)) = 0 := by
        rw [active, List.countP_append]
        exact Nat.add_eq_zero_iff.mpr ⟨idle, waits⟩
      have built : ReflTransGen (Step context workers)
          ⟨fs, front ++ (file, .waiting) :: rest.map fun file => (file, .waiting)⟩ _ :=
        steps_alone others .waiting
      have rested : active (front ++ [(file, .done (file.build context fs).2.1)]) = 0 := by
        rw [active, List.countP_append]
        exact Nat.add_eq_zero_iff.mpr ⟨idle, rfl⟩
      obtain ⟨ended, later, finished, reported⟩ :=
        inductionHypothesis (file.build context fs).1 _ rested
      rw [List.append_assoc, List.append_assoc, List.singleton_append, List.singleton_append] at later
      refine ⟨(file, .done (file.build context fs).2.1) :: ended, built.trans later, ?_, ?_⟩
      · rintro task (_ | ⟨_, member⟩)
        · rfl
        · exact finished task member
      · exact congrArg (List.cons _) reported

/-- Building the second of two files first is a schedule too. -/
theorem steps_reversed (context : BuildContext) (workers : Nat) (fs : FileSystem)
    (first second : SourceFile) :
    ReflTransGen (Step context workers) (.start fs [first, second])
      ⟨(first.build context (second.build context fs).1).1,
        [(first, .done (first.build context (second.build context fs).1).2.1),
          (second, .done (second.build context fs).2.1)]⟩ :=
  .trans (@steps_alone context workers [(first, .waiting)] [] fs second .waiting rfl .waiting)
    (@steps_alone context workers [] [(second, .done (second.build context fs).2.1)]
      (second.build context fs).1 first .waiting rfl .waiting)

def remaining (schedule : Schedule) : Nat :=
  schedule.tasks.foldr (fun task later => task.2.remaining + later) 0

theorem foldr_remaining_lt (tasks : List (SourceFile × Stage)) {fewer more : Nat}
    (less : fewer < more) :
    tasks.foldr (fun task later => task.2.remaining + later) fewer <
      tasks.foldr (fun task later => task.2.remaining + later) more := by
  induction tasks with
  | nil => exact less
  | cons task rest inductionHypothesis =>
      rw [List.foldr_cons, List.foldr_cons]
      omega

theorem remaining_lt_of_step {schedule next : Schedule} (step : Step context workers schedule next) :
    next.remaining < schedule.remaining := by
  cases step with
  | @advance fs front back file stage unfinished free =>
      have fewer := SourceFile.remaining_advance context fs file unfinished
      rw [remaining, remaining, List.foldr_append, List.foldr_append, List.foldr_cons,
        List.foldr_cons]
      exact foldr_remaining_lt front (Nat.add_lt_add_right fewer _)

/-- While something is left to do, some worker can take a step. -/
theorem exists_step (context : BuildContext) (workers : Nat) {schedule : Schedule}
    (unfinished : ¬ schedule.IsFinished) : ∃ next, Step context workers schedule next := by
  obtain ⟨fs, tasks⟩ := schedule
  by_cases idle : active tasks = 0
  · -- Nobody is at work, so any file can be taken up.
    simp only [IsFinished, not_forall, Bool.not_eq_true, Option.isSome_eq_false_iff,
      Option.isNone_iff_eq_none] at unfinished
    obtain ⟨⟨file, stage⟩, member, waits⟩ := unfinished
    obtain ⟨front, back, rfl⟩ := List.append_of_mem member
    have others : active (front ++ back) ≤ active (front ++ (file, stage) :: back) :=
      ((List.sublist_cons_self _ _).append_left front).countP_le
    exact ⟨_, .advance waits fun _ => by omega⟩
  · obtain ⟨⟨file, stage⟩, member, isActive⟩ := List.countP_pos_iff.mp (Nat.pos_of_ne_zero idle)
    obtain ⟨front, back, rfl⟩ := List.append_of_mem member
    refine ⟨_, @Step.advance context workers fs front back file stage ?_ ?_⟩
    · cases stage with
      | waiting => cases isActive
      | done => cases isActive
      | _ => rfl
    · rintro rfl
      cases isActive

/-- No schedule gets stuck. -/
theorem exists_finished (context : BuildContext) (workers : Nat) (schedule : Schedule) :
    ∃ final, ReflTransGen (Step context workers) schedule final ∧ final.IsFinished := by
  induction left : schedule.remaining using Nat.strongRecOn generalizing schedule with
  | _ remaining inductionHypothesis =>
      by_cases finished : schedule.IsFinished
      · exact ⟨schedule, .refl, finished⟩
      · obtain ⟨next, first⟩ := exists_step context workers finished
        obtain ⟨final, later, finalFinished⟩ :=
          inductionHypothesis _ (left ▸ remaining_lt_of_step first) next rfl
        exact ⟨final, .head first later, finalFinished⟩

end Finishing

end Schedule

/-! ## Builds -/

namespace Project

variable {project : Project} {call : BuildCall}

/-- Files with relative paths of their own are sorted to one list from any order. -/
theorem mergeSort_of_perm {walked listing : List SourceFile} (walks : walked.Perm listing)
    (distinct : (listing.map SourceFile.relative).Nodup) :
    walked.mergeSort Scan.le = listing.mergeSort Scan.le := by
  refine mergeSort_eq_of_perm ascends_trans ascends_total walks ?_
  intro first isFirst second isSecond lower upper
  refine List.inj_on_of_nodup_map distinct (walks.mem_iff.mp isFirst)
    (walks.mem_iff.mp isSecond) (Std.LawfulEqOrd.eq_of_compare ?_)
  rw [decide_eq_true_eq] at lower upper
  cases order : compare first.relative second.relative with
  | eq => rfl
  | lt => exact absurd (Std.OrientedCmp.gt_of_lt order) upper
  | gt => exact absurd order lower

/-- Builds do not depend on scheduling, if no output is the place of a listed file and no `..` of
the project's path comes behind the root. Whatever order the walk lists the files in, and however
many workers take their steps in whatever order, a schedule can be finished from wherever it has
come to, and once it is finished the build ends as the one that builds the sorted files one after
the other: with the same file system, and the same report or error. -/
theorem scheduled_eq_run {walked listing : List SourceFile} {workers : Nat} {reached : Schedule}
    (wellFormed : call.before.WellFormed) (isListing : project.listing call = .ok listing)
    (walks : walked.Perm listing) (distinct : (listing.map SourceFile.relative).Nodup)
    (apart : ∀ location ∈ project.inputPlaces call, location ∉ project.outputPlaces call)
    (direct : project.IsDirect call)
    (steps : ReflTransGen (Schedule.Step (project.context call) workers)
      (.start call.before (walked.mergeSort Scan.le)) reached) :
    (∃ final, ReflTransGen (Schedule.Step (project.context call) workers) reached final ∧
      final.IsFinished) ∧
    ∀ final, ReflTransGen (Schedule.Step (project.context call) workers) reached final →
      final.IsFinished →
      Build.conclude call.config project.directory project.path (project.loaded call)
        final.outcomes final.fs = ((project.run call).fs, (project.run call).result) := by
  rw [mergeSort_of_perm walks distinct] at steps
  have isFound : project.sources call = .ok (listing.mergeSort Scan.le) := by
    rw [sources_eq_listing, isListing]
    rfl
  have nodup : (listing.mergeSort Scan.le).Nodup :=
    (List.mergeSort_perm _ _).nodup_iff.mpr (List.Nodup.of_map _ distinct)
  have independent := project.independent wellFormed isFound direct apart
  refine ⟨Schedule.exists_finished _ _ _, fun final later finished => ?_⟩
  obtain ⟨ended, sequential, endedFinished, reported⟩ := Schedule.steps_files
    (project.context call) workers call.before [] rfl (listing.mergeSort Scan.le)
  have agrees := Schedule.Agrees.of_steps independent nodup (steps.trans later)
  have sequentialAgrees := Schedule.Agrees.of_steps independent nodup sequential
  rw [agrees.unique sequentialAgrees finished endedFinished, run_of_sources_ok isFound,
    Schedule.outcomes, List.nil_append, reported]
  rfl

end Project

namespace Project

open Sample

/-- Two files that the walk lists in the wrong order, of which the second is read first. -/
theorem scheduled_eq_run_twins :
    ∃ reached final,
      ReflTransGen (Schedule.Step (project.context twinBuild) 2)
        (.start twinBuild.before (twins.reverse.mergeSort Scan.le)) reached ∧
      reached.tasks.map Prod.snd = [.waiting, .read markedSource.toByteArray] ∧
      ReflTransGen (Schedule.Step (project.context twinBuild) 2) reached final ∧
      final.IsFinished ∧
      Build.conclude twinBuild.config project.directory project.path (project.loaded twinBuild)
        final.outcomes final.fs = ((project.run twinBuild).fs, (project.run twinBuild).result) := by
  have isListing : project.listing twinBuild = .ok twins := by decide +kernel
  have distinct : (twins.map SourceFile.relative).Nodup := by decide
  have sorted : twins.reverse.mergeSort Scan.le = twins := by
    rw [mergeSort_of_perm (List.reverse_perm _) distinct]
    exact List.mergeSort_of_pairwise (by decide +kernel)
  have read : twinBuild.before.read? project.directory "/p/a.ts" =
      some markedSource.toByteArray := by decide +kernel
  have first : Schedule.Step (project.context twinBuild) 2 (.start twinBuild.before twins) _ :=
    @Schedule.Step.advance _ _ _ [(⟨"/p/a.js", "a.js", .javaScript⟩, .waiting)] []
      ⟨"/p/a.ts", "a.ts", .typeScript⟩ .waiting rfl fun _ => by decide
  rw [← sorted] at first
  obtain ⟨⟨final, later, finished⟩, ends⟩ := scheduled_eq_run (by decide +kernel) isListing
    (List.reverse_perm _) distinct
    (by rw [inputPlaces, outputPlaces, listed_eq (sources_of_sorted isListing (by decide +kernel))]
        decide +kernel)
    (by decide) (.single first)
  refine ⟨_, final, .single first, ?_, later, finished, ends final later finished⟩
  rw [List.map_append, List.map_cons, SourceFile.advance, SourceFile.reading, context_directory, read]
  rfl

end Project

/-! ## Schedules that matter -/

namespace Project

variable {project : Project} {call : BuildCall}

/-- Whether some finished schedule of the listed files ends otherwise than the build. -/
def DependsOnSchedule (project : Project) (call : BuildCall) (workers : Nat) : Prop :=
  ∃ listing final, project.listing call = .ok listing ∧
    (listing.map SourceFile.relative).Nodup ∧
    ReflTransGen (Schedule.Step (project.context call) workers)
      (.start call.before (listing.mergeSort Scan.le)) final ∧
    final.IsFinished ∧
    Build.conclude call.config project.directory project.path (project.loaded call)
      final.outcomes final.fs ≠ ((project.run call).fs, (project.run call).result)

/-- How a build of two files ends that begins with a cache and builds the second file first. -/
def concludedReversed (project : Project) (call : BuildCall) (cache : BuildCache)
    (first second : SourceFile) : FileSystem × Except Error BuildReport :=
  let ahead := second.build (project.contextWith call cache) call.before
  let behind := first.build (project.contextWith call cache) ahead.1
  Build.conclude call.config project.directory project.path cache [behind.2.1, ahead.2.1] behind.1

theorem dependsOnSchedule_of_reversed {cache : BuildCache} {first second : SourceFile}
    (workers : Nat) (isListing : project.listing call = .ok [first, second])
    (distinct : first.relative ≠ second.relative) (ascends : Scan.le first second = true)
    (isLoaded : project.loaded call = cache)
    (differs : project.concludedReversed call cache first second ≠
      project.concludedWith call cache [first, second]) :
    project.DependsOnSchedule call workers := by
  subst isLoaded
  have sorted : [first, second].Pairwise fun first second => Scan.le first second = true := by
    simpa using ascends
  have steps := Schedule.steps_reversed (project.context call) workers call.before first second
  rw [← List.mergeSort_of_pairwise sorted] at steps
  refine ⟨_, _, isListing, by simpa using distinct, steps, ?_, ?_⟩
  · simp [Schedule.IsFinished, Stage.outcome?]
  · rw [run_of_sources_ok (sources_of_sorted isListing sorted)]
    exact differs

end Project

namespace Sample

def listedFile (project : Project) (relative : String) : SourceFile :=
  ⟨Path.join project.path relative, relative, .typeScript⟩

/-- A project whose path goes up behind the base of its outputs. -/
def climbing : Project := ⟨parser, [], "/r/x/../p"⟩

/-- The first file is known with the digest of the empty text. -/
def climbingCache : BuildCache :=
  (BuildCache.empty {}).update "a.ts"
    "e3b0c44298fc1c149afbf4c8996fb92427ae41e4649b934ca495991b7852b855" []

def climbingConfig : Config :=
  { rootDir := "/r", included := ["*.ts"], manifest := none }

/-- The cache of an earlier build is stored beside its output of the first file. -/
def climbingStored : FileSystem.Attempt :=
  (holding [("/r/x/c.ts", ""), ("/r/p/a.ts", ""), ("/r/p/b.ts", ""),
    ("/r/p/dist/p/a.ts", "")]).save climbing.directory
      (Path.join (climbingConfig.outPath climbing.path) BuildCache.fileName)
      climbingCache.render.toByteArray

/-- The output of the first file stands, but the directory `dist/x` on the way to it does not. -/
def climbingBuild : BuildCall :=
  ⟨climbingStored.fs, [], climbingConfig⟩

/-- The outputs go to a directory of sources that is spelled otherwise. -/
def aliasedBuild : BuildCall :=
  ⟨holding [("/p/a.ts", "a"), ("/p/gen/a.ts", "b")], [],
    { outDir := "../p/gen", included := ["*.ts"], manifest := none, incremental := false }⟩

/-- Whether `dist/x` stands when the first file is asked for is up to the second. -/
theorem checked_climbing :
    climbingBuild.before.WellFormed ∧ climbingBuild.config.validate = .ok () ∧
    climbingStored.succeeded = true ∧
    climbing.listing climbingBuild =
      .ok [listedFile climbing "a.ts", listedFile climbing "b.ts"] ∧
    Scan.le (listedFile climbing "a.ts") (listedFile climbing "b.ts") = true ∧
    (climbing.concludedReversed climbingBuild climbingCache (listedFile climbing "a.ts")
      (listedFile climbing "b.ts")).2 = .ok ⟨2, 0, 1, 1, 0, 0, 0, none⟩ ∧
    (climbing.concludedWith climbingBuild climbingCache
      [listedFile climbing "a.ts", listedFile climbing "b.ts"]).2 =
        .ok ⟨2, 0, 2, 0, 0, 0, 0, none⟩ := by
  decide +kernel

theorem loaded_climbing : climbing.loaded climbingBuild = climbingCache := by
  obtain ⟨_, _, stored, _⟩ := checked_climbing
  rw [climbingStored] at stored
  have text : climbingBuild.before.readText? climbing.directory
      (climbing.cachePath climbingBuild) = some climbingCache.render :=
    (readText?_save stored :)
  rw [Project.loaded, text]
  exact congrArg Prod.fst (BuildCache.load_render _ rfl rfl)

theorem sources_climbing : climbing.sources climbingBuild =
    .ok [listedFile climbing "a.ts", listedFile climbing "b.ts"] := by
  obtain ⟨_, _, _, isListing, ascends, _⟩ := checked_climbing
  exact Project.sources_of_sorted isListing (by simpa using ascends)

theorem dependsOnSchedule_climbing : climbing.DependsOnSchedule climbingBuild 2 := by
  obtain ⟨_, _, _, isListing, ascends, reversed, concluded⟩ := checked_climbing
  refine Project.dependsOnSchedule_of_reversed 2 isListing (by decide) ascends loaded_climbing
    fun same => ?_
  rw [same] at reversed
  cases concluded.symm.trans reversed

/-- The text that is left of the second file is that of the first, or its own. -/
theorem checked_aliased :
    aliasedBuild.before.WellFormed ∧ aliasedBuild.config.validate = .ok () ∧
    project.listing aliasedBuild =
      .ok [listedFile project "a.ts", listedFile project "gen/a.ts"] ∧
    Scan.le (listedFile project "a.ts") (listedFile project "gen/a.ts") = true ∧
    (project.concludedReversed aliasedBuild (project.loaded aliasedBuild)
      (listedFile project "a.ts") (listedFile project "gen/a.ts")).1.content?
        ["p", "gen", "gen", "a.ts"] = some "b".toByteArray ∧
    (project.concludedWith aliasedBuild (project.loaded aliasedBuild)
      [listedFile project "a.ts", listedFile project "gen/a.ts"]).1.content?
        ["p", "gen", "gen", "a.ts"] = some "a".toByteArray ∧
    "a".toByteArray ≠ "b".toByteArray := by
  decide +kernel

theorem sources_aliased : project.sources aliasedBuild =
    .ok [listedFile project "a.ts", listedFile project "gen/a.ts"] := by
  obtain ⟨_, _, isListing, ascends, _⟩ := checked_aliased
  exact Project.sources_of_sorted isListing (by simpa using ascends)

theorem dependsOnSchedule_aliased : project.DependsOnSchedule aliasedBuild 2 := by
  obtain ⟨_, _, isListing, ascends, reversed, concluded, differ⟩ := checked_aliased
  refine Project.dependsOnSchedule_of_reversed 2 isListing (by decide) ascends rfl fun same => ?_
  rw [same, concluded] at reversed
  exact differ (Option.some.inj reversed)

end Sample

namespace Project

open Sample

/-- A build can depend on its schedule if a `..` of the project's path comes behind the root, or if
an output is the place of a source that is spelled otherwise. -/
theorem scheduled_ne_run :
    (climbingBuild.before.WellFormed ∧ climbingBuild.config.validate = .ok () ∧
      (∀ location ∈ climbing.inputPlaces climbingBuild,
        location ∉ climbing.outputPlaces climbingBuild) ∧
      climbing.DependsOnSchedule climbingBuild 2) ∧
    aliasedBuild.before.WellFormed ∧ aliasedBuild.config.validate = .ok () ∧
      project.IsDirect aliasedBuild ∧
      (∀ file ∈ project.listed aliasedBuild, ∀ other ∈ project.listed aliasedBuild,
        ∀ output ∈ other.output? (project.context aliasedBuild),
          Path.components output ≠ Path.components file.path) ∧
      project.DependsOnSchedule aliasedBuild 2 := by
  obtain ⟨wellFormed, valid, _⟩ := checked_climbing
  obtain ⟨aliasedWellFormed, aliasedValid, _⟩ := checked_aliased
  refine ⟨⟨wellFormed, valid, ?_, dependsOnSchedule_climbing⟩, aliasedWellFormed, aliasedValid,
    by decide, ?_, dependsOnSchedule_aliased⟩
  · rw [inputPlaces, outputPlaces, listed_eq sources_climbing]
    decide +kernel
  · rw [listed_eq sources_aliased]
    decide +kernel

end Project

end SourceQuote

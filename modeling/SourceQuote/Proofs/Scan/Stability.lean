import SourceQuote.Proofs.Scan.Locality

/-!
Contract: scans before and after some files were written.

Owns: that a scan lists the same files after writes to places where no listed file and no ignore
file lies, if what it reads besides is read as before.

Does not own: what a scan reads besides. Directories that writes create can make a path lead
somewhere that led nowhere before, so that a list of exclusions is found only then.
-/

namespace SourceQuote

open SourceQuote.FileSystem (Keeps place)

/-! ## Files at some places -/

def Entry.isFile : Entry → Bool
  | .file _ => true
  | .directory => false

namespace FileSystem

variable {fs other : FileSystem} {keep : Location → Bool}

theorem filter_isFile {location : Location} (below : location ≠ []) :
    fs.entries[location]?.filter Entry.isFile = (fs.content? location).map Entry.file := by
  have stored : fs.entries[location]? = fs.entry? location := by
    rw [ entry?, if_neg below]
  rw [stored, content?]
  cases fs.entry? location with
  | none => rfl
  | some entry => cases entry <;> rfl

/-- The file system with the files at some places and nothing else. -/
def onlyFiles (fs : FileSystem) (keep : Location → Bool) : FileSystem :=
  ⟨fs.entries.filter fun location entry => keep location && entry.isFile⟩

theorem onlyFiles_congr (top : keep [] = false)
    (same : ∀ location, keep location = true → fs.content? location = other.content? location) :
    fs.onlyFiles keep = other.onlyFiles keep := by
  refine congrArg FileSystem.mk (Std.ExtTreeMap.ext_getElem? fun location => ?_)
  rw [Std.ExtTreeMap.getElem?_filter', Std.ExtTreeMap.getElem?_filter']
  cases kept : keep location with
  | false => simp
  | true =>
      have below : location ≠ [] := by
        rintro rfl
        rw [top] at kept
        cases kept
      simp only [Bool.true_and]
      exact (filter_isFile below).trans
        ((congrArg (Option.map Entry.file) (same location kept)).trans (filter_isFile below).symm)

theorem filesBelow_onlyFiles (fs : FileSystem) (keep : Location → Bool) (base : Location) :
    (fs.onlyFiles keep).filesBelow base =
      (fs.filesBelow base).filter fun pair => keep (base ++ pair.1) := by
  rw [filesBelow, onlyFiles, Std.ExtTreeMap.toList_filter, filesBelow]
  refine filterMap_filter ?_
  rintro ⟨location, entry⟩ _ ⟨below, content⟩ selected
  cases entry with
  | directory => cases selected
  | file own =>
      dsimp only at selected
      split at selected
      · next isPrefix =>
          obtain ⟨rest, rfl⟩ := List.isPrefixOf_iff_prefix.mp isPrefix
          cases selected
          simp [Entry.isFile]
      · cases selected

/-- Files that hold the same are listed alike. -/
theorem filter_filesBelow_congr (top : keep [] = false)
    (same : ∀ location, keep location = true → fs.content? location = other.content? location)
    (base : Location) :
    (fs.filesBelow base).filter (fun pair => keep (base ++ pair.1)) =
      (other.filesBelow base).filter fun pair => keep (base ++ pair.1) := by
  rw [← filesBelow_onlyFiles, onlyFiles_congr top same, filesBelow_onlyFiles]

end FileSystem

/-- What is selected from a list is selected from the part that matters. -/
theorem filterMap_of_kept {α β : Type} {keep : α → Bool} {select : α → Option β} {items : List α}
    (matters : ∀ item ∈ items, ∀ result, select item = some result → keep item = true) :
    items.filterMap select = (items.filter keep).filterMap select := by
  rw [@filterMap_filter _ _ keep (fun _ => true) select items fun item member result selected =>
    (matters item member result selected).symm]
  exact (List.filter_true _).symm

/-! ## Scans -/

theorem IgnoreFiles.sites_congr {fs other : FileSystem} {name : String}
    (same : ∀ location, location.getLast? = some name →
      fs.content? location = other.content? location) : sites fs name = sites other name := by
  have kept : (fs.filesBelow []).filter (fun pair => decide (pair.1.getLast? = some name)) =
      (other.filesBelow []).filter fun pair => decide (pair.1.getLast? = some name) :=
    @FileSystem.filter_filesBelow_congr fs other
      (fun location => decide (location.getLast? = some name)) (by simp)
      (fun location isSite => same location (of_decide_eq_true isSite)) []
  unfold sites
  congr 1
  rw [@filterMap_of_kept _ _ (fun pair => decide (pair.1.getLast? = some name)),
    @filterMap_of_kept _ _ (fun pair => decide (pair.1.getLast? = some name)) _
      (other.filesBelow []), kept]
  all_goals
    rintro ⟨location, content⟩ _ site selected
    dsimp only at selected
    split at selected
    · next last => exact decide_eq_true last
    · cases selected

namespace Scan

variable {before after : FileSystem} {directory : Location} {environment : Environment}
  {project : String} {included excluded skipped : List String} {touched : List Location}

/-- Whether what a scan reads besides the files it lists and the ignore files of directories is
read from one file system as from another. -/
structure Unmoved (before after : FileSystem) (directory : Location) (environment : Environment)
    (project : String) : Prop where
  project : after.existing? directory project = before.existing? directory project
  user : UserIgnore.rules after directory environment =
    UserIgnore.rules before directory environment
  repositories : IgnoreFiles.exclusions after directory = IgnoreFiles.exclusions before directory

theorem judges_eq (keeps : Keeps {location | location ∈ touched} before after)
    (unmoved : Unmoved before after directory environment project)
    (ignores : ∀ location ∈ touched, ∀ name ∈ location.getLast?, name ∉ IgnoreFiles.names)
    (selection : Selection) :
    judges after directory environment selection =
      judges before directory environment selection := by
  have sites : IgnoreFiles.names.map (IgnoreFiles.sites after) =
      IgnoreFiles.names.map (IgnoreFiles.sites before) := by
    refine List.map_congr_left fun name isName => IgnoreFiles.sites_congr fun location last => ?_
    exact keeps.contents location fun isTouched => ignores location isTouched name last isName
  rw [judges, judges, unmoved.user, IgnoreFiles.groups, IgnoreFiles.groups, sites,
    unmoved.repositories]

/-- What a scan selects from the files below a project if none of it lies at some places. -/
theorem filterMap_listed? {fs : FileSystem} (wellFormed : fs.WellFormed) {judges : Judges}
    {base : Location} (isBase : base = place directory project)
    (outside : ∀ file ∈ (fs.filesBelow base).filterMap
      (fun pair => listed? judges base project pair.1), place directory file.path ∉ touched) :
    (fs.filesBelow base).filterMap (fun pair => listed? judges base project pair.1) =
      ((fs.filesBelow base).filter fun pair =>
        decide (base ++ pair.1 ≠ [] ∧ base ++ pair.1 ∉ touched)).filterMap
        fun pair => listed? judges base project pair.1 := by
  refine filterMap_of_kept ?_
  rintro ⟨below, content⟩ member file isListed
  have isFile := outside file (List.mem_filterMap.mpr ⟨_, member, isListed⟩)
  rw [place_of_listed? wellFormed isBase member isListed] at isFile
  have nonempty := (listed?_eq_some isListed).1
  exact decide_eq_true ⟨by simp [nonempty], isFile⟩

theorem listing_of_keeps (wellFormed : before.WellFormed) (stillWellFormed : after.WellFormed)
    (keeps : Keeps {location | location ∈ touched} before after)
    (unmoved : Unmoved before after directory environment project)
    (ignores : ∀ location ∈ touched, ∀ name ∈ location.getLast?, name ∉ IgnoreFiles.names)
    (outside : ∀ files,
      listing before directory environment project included excluded skipped = .ok files →
      ∀ file ∈ files, place directory file.path ∉ touched)
    (stillOutside : ∀ files,
      listing after directory environment project included excluded skipped = .ok files →
      ∀ file ∈ files, place directory file.path ∉ touched) :
    listing after directory environment project included excluded skipped =
      listing before directory environment project included excluded skipped := by
  unfold listing at outside stillOutside ⊢
  cases selected : Selection.ofSettings project included excluded skipped with
  | error error => rfl
  | ok selection =>
      rw [selected] at outside stillOutside
      dsimp only [Except.map] at outside stillOutside ⊢
      rw [unmoved.project, judges_eq keeps unmoved ignores] at stillOutside ⊢
      cases existing : before.existing? directory project with
      | none => rfl
      | some base =>
          rw [existing] at outside stillOutside
          have isBase := FileSystem.eq_place_of_existing? existing
          refine congrArg Except.ok ?_
          dsimp only
          rw [filterMap_listed? wellFormed isBase (outside _ rfl),
            filterMap_listed? stillWellFormed isBase (stillOutside _ rfl)]
          congr 1
          refine @FileSystem.filter_filesBelow_congr after before
            (fun location => decide (location ≠ [] ∧ location ∉ touched)) (by simp) ?_ base
          intro location untouched
          exact keeps.contents location (of_decide_eq_true untouched).2

/-- A scan lists the same files after writes to places that it takes no account of. -/
theorem sourceFiles_of_keeps (wellFormed : before.WellFormed)
    (stillWellFormed : after.WellFormed)
    (keeps : Keeps {location | location ∈ touched} before after)
    (unmoved : Unmoved before after directory environment project)
    (ignores : ∀ location ∈ touched, ∀ name ∈ location.getLast?, name ∉ IgnoreFiles.names)
    (outside : ∀ files,
      sourceFiles before directory environment project included excluded skipped = .ok files →
      ∀ file ∈ files, place directory file.path ∉ touched)
    (stillOutside : ∀ files,
      sourceFiles after directory environment project included excluded skipped = .ok files →
      ∀ file ∈ files, place directory file.path ∉ touched) :
    sourceFiles after directory environment project included excluded skipped =
      sourceFiles before directory environment project included excluded skipped := by
  have unsorted : ∀ {fs : FileSystem}, (∀ files,
      sourceFiles fs directory environment project included excluded skipped = .ok files →
        ∀ file ∈ files, place directory file.path ∉ touched) → ∀ files,
      listing fs directory environment project included excluded skipped = .ok files →
        ∀ file ∈ files, place directory file.path ∉ touched := by
    intro fs sorted files found file member
    refine sorted (files.mergeSort le) ?_ file (List.mem_mergeSort.mpr member)
    rw [sourceFiles_eq, found]
    rfl
  rw [sourceFiles_eq, sourceFiles_eq, listing_of_keeps wellFormed stillWellFormed keeps unmoved
    ignores (unsorted outside) (unsorted stillOutside)]

end Scan

end SourceQuote

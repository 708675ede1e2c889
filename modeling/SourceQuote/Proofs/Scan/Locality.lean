import SourceQuote.Proofs.Containers.Sorting
import SourceQuote.Proofs.Scan.Enumeration

/-!
Contract: what a directory holds is of no account for files outside of it.

Owns: emptying a directory, and that a scan lists the same files before and after, if none of
them lies inside and nothing else that the scan reads is reached through the directory.

Ignore files speak about what lies below their own directory, so those inside a directory are
silent about everything outside. What a scan reads besides is listed in `Scan.Detached`.
-/

namespace SourceQuote

open SourceQuote.FileSystem (place)
open SourceQuote.Path (ProperName)

/-! ## Searching parts of a list -/

section Lists

variable {α β : Type}

theorem findSome?_filter {keep : α → Bool} {answer : α → Option β} {items : List α}
    (silent : ∀ item ∈ items, keep item = false → answer item = none) :
    (items.filter keep).findSome? answer = items.findSome? answer := by
  induction items with
  | nil => rfl
  | cons item rest inductionHypothesis =>
      have restSame := inductionHypothesis fun other member =>
        silent other (List.mem_cons_of_mem _ member)
      cases kept : keep item with
      | true => simp [kept, List.findSome?_cons, restSame]
      | false =>
          rw [List.filter_cons_of_neg (by simp [kept]), restSame, List.findSome?_cons,
            silent item List.mem_cons_self kept]

theorem filterMap_filter {keep : α → Bool} {keepResult : β → Bool} {select : α → Option β}
    {items : List α}
    (agree : ∀ item ∈ items, ∀ result, select item = some result →
      keepResult result = keep item) :
    (items.filter keep).filterMap select = (items.filterMap select).filter keepResult := by
  induction items with
  | nil => rfl
  | cons item rest inductionHypothesis =>
      have restSame := inductionHypothesis fun other member =>
        agree other (List.mem_cons_of_mem _ member)
      cases selected : select item with
      | none => cases kept : keep item <;> simp [kept, selected, restSame]
      | some result =>
          have same := agree item List.mem_cons_self result selected
          cases kept : keep item <;> simp [kept, selected, restSame, same ▸ kept]

end Lists

/-! ## Emptying a directory -/

namespace FileSystem

/-- The file system without anything inside a place. -/
def emptied (fs : FileSystem) (location : Location) : FileSystem :=
  ⟨fs.entries.filter fun other _ => !isInside location other⟩

theorem entryAt_emptied (fs : FileSystem) (location other : Location) :
    entry? (fs.emptied location) other =
      if isInside location other then none else fs.entry? other := by
  unfold entry? emptied
  by_cases top : other = []
  · subst top
    have outside : isInside location [] = false := by
      cases location <;> rfl
    rw [if_pos rfl, outside]
    rfl
  · rw [if_neg top, if_neg top, Std.ExtTreeMap.getElem?_filter']
    cases fs.entries[other]? <;> cases isInside location other <;> rfl

theorem entryAt_emptied_of_outside {fs : FileSystem} {location other : Location}
    (outside : isInside location other = false) :
    entry? (fs.emptied location) other = fs.entry? other := by
  rw [entryAt_emptied, outside]
  rfl

theorem content?_emptied_of_outside {fs : FileSystem} {location other : Location}
    (outside : isInside location other = false) :
    (fs.emptied location).content? other = fs.content? other := by
  rw [content?, entryAt_emptied_of_outside outside, content?]

theorem isDirectory_emptied_of_outside {fs : FileSystem} {location other : Location}
    (outside : isInside location other = false) :
    (fs.emptied location).isDirectory other = fs.isDirectory other := by
  rw [isDirectory, entryAt_emptied_of_outside outside, isDirectory]

theorem content?_emptied_of_inside {fs : FileSystem} {location other : Location}
    (inside : isInside location other = true) :
    (fs.emptied location).content? other = none := by
  rw [content?, entryAt_emptied, inside]
  rfl

theorem toList_emptied (fs : FileSystem) (location : Location) :
    (fs.emptied location).entries.toList =
      fs.entries.toList.filter fun pair => !isInside location pair.1 :=
  Std.ExtTreeMap.toList_filter

theorem content?_of_emptied {fs : FileSystem} {location other : Location} {content : ByteArray}
    (stands : (fs.emptied location).content? other = some content) :
    fs.content? other = some content := by
  cases inside : isInside location other with
  | true =>
      rw [content?_emptied_of_inside inside] at stands
      cases stands
  | false => rwa [content?_emptied_of_outside inside] at stands

theorem WellFormed.emptied {fs : FileSystem} (wellFormed : fs.WellFormed) (location : Location) :
    (fs.emptied location).WellFormed where
  proper other entry stands := by
    rw [entryAt_emptied] at stands
    split at stands
    · cases stands
    · exact wellFormed.proper other entry stands
  above other name entry stands := by
    rw [entryAt_emptied] at stands
    split at stands
    · cases stands
    · next outside =>
        rw [Bool.not_eq_true] at outside
        rw [isDirectory_emptied_of_outside (isInside_front outside)]
        exact wellFormed.above other name entry stands

theorem filesBelow_emptied (fs : FileSystem) (location base : Location) :
    (fs.emptied location).filesBelow base =
      (fs.filesBelow base).filter fun pair => !isInside location (base ++ pair.1) := by
  rw [filesBelow, toList_emptied, filesBelow]
  refine filterMap_filter ?_
  rintro ⟨other, entry⟩ _ ⟨below, content⟩ selected
  cases entry with
  | directory => cases selected
  | file own =>
      dsimp only at selected
      split at selected
      · next isPrefix =>
          obtain ⟨rest, rfl⟩ := List.isPrefixOf_iff_prefix.mp isPrefix
          cases selected
          simp
      · cases selected

end FileSystem

/-! ## Ignore files -/

namespace IgnoreFiles

variable {fs : FileSystem} {here location : Location}

theorem deepestFirst_filter (keep : Site → Bool) (group : List Site) :
    deepestFirst (group.filter keep) = (deepestFirst group).filter keep := by
  symm
  refine filter_mergeSort ?_ ?_ keep group
  · intro first second third
    simp only [decide_eq_true_eq]
    omega
  · intro first second
    simp only [Bool.or_eq_true, decide_eq_true_eq]
    omega

theorem below?_eq_some {directory other below : Location}
    (found : below? directory other = some below) : below ≠ [] ∧ other = directory ++ below := by
  induction directory generalizing other with
  | nil =>
      cases other with
      | nil => cases found
      | cons name rest =>
          cases found
          exact ⟨by simp, rfl⟩
  | cons first directory inductionHypothesis =>
      cases other with
      | nil => cases found
      | cons name rest =>
          rw [below?] at found
          split at found
          · next same =>
              obtain ⟨nonempty, rfl⟩ := inductionHypothesis found
              exact ⟨nonempty, by rw [same]; rfl⟩
          · cases found

/-- Whether a site does not lie in a directory. -/
def Site.isApart (location : Location) (site : Site) : Bool :=
  !location.isPrefixOf site.directory

theorem Site.verdict?_of_not_isApart {site : Site} {other : Location} (isDirectory : Bool)
    (inside : site.isApart location = false)
    (outside : FileSystem.isInside location other = false) :
    site.verdict? other isDirectory = none := by
  rw [verdict?, Option.bind_eq_none_iff]
  intro below found
  obtain ⟨nonempty, rfl⟩ := below?_eq_some found
  rw [isApart, Bool.not_eq_false', List.isPrefixOf_iff_prefix] at inside
  obtain ⟨between, sameDirectory⟩ := inside
  rw [Bool.eq_false_iff] at outside
  refine absurd (FileSystem.isInside_iff.mpr ⟨between ++ below, by simp [nonempty], ?_⟩) outside
  rw [← sameDirectory, List.append_assoc]

/-- What stands at a place outside of a directory belongs to a site that lies apart from it. -/
theorem isApart_dropLast {other : Location} {name : String} (rules : List Rule)
    (last : other.getLast? = some name) :
    Site.isApart location ⟨other.dropLast, rules⟩ = !FileSystem.isInside location other := by
  obtain ⟨front, rfl⟩ := List.getLast?_eq_some_iff.mp last
  rw [Site.isApart, List.dropLast_concat]
  congr 1
  rw [Bool.eq_iff_iff, List.isPrefixOf_iff_prefix, FileSystem.isInside_iff]
  constructor
  · rintro ⟨between, rfl⟩
    exact ⟨between ++ [name], by simp, by simp⟩
  · rintro ⟨below, nonempty, split⟩
    obtain ⟨between, last, rfl⟩ := List.eq_nil_or_concat below |>.resolve_left nonempty
    rw [List.concat_eq_append, ← List.append_assoc] at split
    exact ⟨between, ((List.append_inj_left' split rfl)).symm⟩

theorem sites_emptied (fs : FileSystem) (location : Location) (name : String) :
    sites (fs.emptied location) name = (sites fs name).filter (Site.isApart location) := by
  rw [sites, sites, ← deepestFirst_filter, FileSystem.filesBelow_emptied]
  congr 1
  refine filterMap_filter ?_
  rintro ⟨other, content⟩ _ site selected
  dsimp only at selected
  split at selected
  · next last =>
      cases selected
      exact isApart_dropLast _ last
  · cases selected

/-- Whether the exclusion lists of repositories outside of a directory are read without it. -/
def ExclusionsDetached (fs : FileSystem) (here location : Location) : Prop :=
  ∀ other entry, fs.entry? other = some entry → other.getLast? = some ".git" →
    FileSystem.isInside location other = false →
    exclusionList? (fs.emptied location) here other entry = exclusionList? fs here other entry

theorem exclusions_emptied (detached : ExclusionsDetached fs here location) :
    exclusions (fs.emptied location) here =
      (exclusions fs here).filter (Site.isApart location) := by
  rw [exclusions, exclusions, ← deepestFirst_filter, FileSystem.toList_emptied]
  congr 1
  have sameLists : (fs.entries.toList.filter fun pair =>
        !FileSystem.isInside location pair.1).filterMap
        (fun pair => if pair.1.getLast? = some ".git" then
          (exclusionList? (fs.emptied location) here pair.1 pair.2).map fun content =>
            (⟨pair.1.dropLast, rulesIn content⟩ : Site) else none) =
      (fs.entries.toList.filter fun pair => !FileSystem.isInside location pair.1).filterMap
        (fun pair => if pair.1.getLast? = some ".git" then
          (exclusionList? fs here pair.1 pair.2).map fun content =>
            (⟨pair.1.dropLast, rulesIn content⟩ : Site) else none) := by
    refine List.filterMap_congr ?_
    rintro ⟨other, entry⟩ member
    obtain ⟨isEntry, outside⟩ := List.mem_filter.mp member
    dsimp only at outside ⊢
    split
    · next last =>
        have stands : fs.entry? other = some entry := by
          have below : other ≠ [] := by
            rintro rfl
            cases last
          exact (FileSystem.entryAt_of_mem_toList below).mp isEntry
        rw [detached other entry stands last (by simpa using outside)]
    · rfl
  refine sameLists.trans (filterMap_filter ?_)
  rintro ⟨other, entry⟩ _ site selected
  dsimp only at selected
  split at selected
  · next last =>
      obtain ⟨content, _, rfl⟩ := Option.map_eq_some_iff.mp selected
      exact isApart_dropLast _ last
  · cases selected

/-- Ignore files inside a directory do not decide about what lies outside. -/
theorem verdict?_emptied {other : Location} (isDirectory : Bool)
    (detached : ExclusionsDetached fs here location)
    (outside : FileSystem.isInside location other = false) :
    verdict? (groups (fs.emptied location) here) other isDirectory =
      verdict? (groups fs here) other isDirectory := by
  have silent : ∀ group : List Site, (group.filter (Site.isApart location)).findSome?
        (fun site => site.verdict? other isDirectory) =
      group.findSome? fun site => site.verdict? other isDirectory :=
    fun group => findSome?_filter fun site _ inside =>
      site.verdict?_of_not_isApart isDirectory inside outside
  have regrouped : groups (fs.emptied location) here =
      (groups fs here).map fun group => group.filter (Site.isApart location) := by
    rw [groups, groups, exclusions_emptied detached, List.map_append, List.map_map]
    congr 1
    exact List.map_congr_left fun name _ => sites_emptied fs location name
  rw [verdict?, regrouped, List.findSome?_map, verdict?]
  congr 1
  funext group
  exact silent group

end IgnoreFiles

/-! ## Scans -/

namespace Scan

variable {fs : FileSystem} {directory : Location} {environment : Environment} {project : String}
  {location : Location} {selection : Selection}

/-- Whether everything that a scan reads besides the files it lists, and the ignore files among
them, is read without going through a directory. -/
structure Detached (fs : FileSystem) (directory : Location) (environment : Environment)
    (project : String) (location : Location) : Prop where
  project : (fs.emptied location).existing? directory project = fs.existing? directory project
  user : UserIgnore.rules (fs.emptied location) directory environment =
    UserIgnore.rules fs directory environment
  repositories : IgnoreFiles.ExclusionsDetached fs directory location

theorem isDropped_emptied {base below : Location} (isDirectory : Bool)
    (detached : Detached fs directory environment project location)
    (outside : FileSystem.isInside location (base ++ below) = false) :
    isDropped (judges (fs.emptied location) directory environment selection) base below
        isDirectory =
      isDropped (judges fs directory environment selection) base below isDirectory := by
  unfold isDropped Judges.verdict? judges
  dsimp only
  rw [IgnoreFiles.verdict?_emptied isDirectory detached.repositories outside, detached.user]

theorem mem_directoriesAbove {below front : Location} (member : front ∈ directoriesAbove below) :
    ∃ back, below = front ++ back := by
  induction below generalizing front with
  | nil => cases member
  | cons name rest inductionHypothesis =>
      cases rest with
      | nil => cases member
      | cons next others =>
          rcases List.mem_cons.mp member with rfl | later
          · exact ⟨next :: others, rfl⟩
          · obtain ⟨inner, isInner, rfl⟩ := List.mem_map.mp later
            obtain ⟨back, split⟩ := inductionHypothesis isInner
            exact ⟨back, by rw [split]; rfl⟩

theorem isKept_emptied {base below : Location}
    (detached : Detached fs directory environment project location)
    (outside : FileSystem.isInside location (base ++ below) = false) :
    isKept (judges (fs.emptied location) directory environment selection) base below =
      isKept (judges fs directory environment selection) base below := by
  unfold isKept
  rw [isDropped_emptied false detached outside]
  congr 1
  rw [Bool.eq_iff_iff, List.all_eq_true, List.all_eq_true]
  refine forall₂_congr fun front member => ?_
  obtain ⟨back, rfl⟩ := mem_directoriesAbove member
  rw [← List.append_assoc] at outside
  rw [isDropped_emptied true detached (FileSystem.isInside_front outside)]

/-- A place inside a directory is not listed if all listed files lie outside. -/
theorem listed?_of_inside {judges : Judges} {content : ByteArray} {below : Location}
    (wellFormed : fs.WellFormed)
    (outside : ∀ pair ∈ fs.filesBelow (place directory project), ∀ file,
      listed? judges (place directory project) project pair.1 = some file →
      FileSystem.isInside location (place directory file.path) = false)
    (member : (below, content) ∈ fs.filesBelow (place directory project))
    (inside : FileSystem.isInside location (place directory project ++ below) = true) :
    listed? judges (place directory project) project below = none := by
  rw [Option.eq_none_iff_forall_ne_some]
  intro file isListed
  have fileOutside := outside _ member file isListed
  rw [place_of_listed? wellFormed rfl member isListed, inside] at fileOutside
  cases fileOutside

theorem listing_emptied {included excluded skipped : List String}
    (wellFormed : fs.WellFormed)
    (detached : Detached fs directory environment project location)
    (outside : ∀ files,
      listing fs directory environment project included excluded skipped = .ok files →
      ∀ file ∈ files, FileSystem.isInside location (place directory file.path) = false) :
    listing (fs.emptied location) directory environment project included excluded skipped =
      listing fs directory environment project included excluded skipped := by
  unfold listing at outside ⊢
  rw [detached.project]
  cases selected : Selection.ofSettings project included excluded skipped with
  | error error => rfl
  | ok selection =>
      cases existing : fs.existing? directory project with
      | none => rfl
      | some base =>
          rw [selected, existing] at outside
          obtain rfl := FileSystem.eq_place_of_existing? existing
          refine congrArg Except.ok ?_
          dsimp only
          rw [FileSystem.filesBelow_emptied]
          have sameJudgement : ∀ pair ∈ (fs.filesBelow (place directory project)).filter
              (fun pair => !FileSystem.isInside location (place directory project ++ pair.1)),
              listed? (judges (fs.emptied location) directory environment selection)
                  (place directory project) project pair.1 =
                listed? (judges fs directory environment selection)
                  (place directory project) project pair.1 := by
            intro pair member
            have isOutside := (List.mem_filter.mp member).2
            rw [Bool.not_eq_true'] at isOutside
            unfold listed?
            rw [isKept_emptied detached isOutside]
          rw [List.filterMap_congr sameJudgement]
          -- What lies inside is not listed in the first place.
          refine (@filterMap_filter _ _ _ (fun _ => true) _ _ ?_).trans (List.filter_true _)
          rintro ⟨below, content⟩ member file isListed
          symm
          rw [Bool.not_eq_true', Bool.eq_false_iff]
          intro inside
          rw [listed?_of_inside wellFormed (fun pair isPair other isOther =>
            outside _ rfl other (List.mem_filterMap.mpr ⟨pair, isPair, isOther⟩)) member inside]
            at isListed
          cases isListed

/-- A scan lists the same files whether or not a directory is emptied before, if all of them lie
outside. -/
theorem sourceFiles_emptied {included excluded skipped : List String}
    (wellFormed : fs.WellFormed)
    (detached : Detached fs directory environment project location)
    (outside : ∀ files,
      sourceFiles fs directory environment project included excluded skipped = .ok files →
      ∀ file ∈ files, FileSystem.isInside location (place directory file.path) = false) :
    sourceFiles (fs.emptied location) directory environment project included excluded skipped =
      sourceFiles fs directory environment project included excluded skipped := by
  rw [sourceFiles_eq, sourceFiles_eq, listing_emptied wellFormed detached]
  intro files found file member
  refine outside (files.mergeSort le) ?_ file (List.mem_mergeSort.mpr member)
  rw [sourceFiles_eq, found]
  rfl

end Scan

end SourceQuote

import SourceQuote.Proofs.FileSystem.Writes
import SourceQuote.Scan.SourceFiles
import SourceQuote.Storage.Cache

/-!
Contract: what is known of a file that a scan lists.

Owns: well-formed file systems, and for every listed file the names that lead to it from the
project, its place, that its path is followed to that place whatever is written elsewhere, and
that its output is neither the output of another listed file nor the cache.
-/

namespace SourceQuote

open SourceQuote.Text
open SourceQuote.FileSystem (Keeps place)
open SourceQuote.Path (Component ProperName)

/-- What every file system is like: names are proper, and what stands at a place stands in a
directory. -/
structure FileSystem.WellFormed (fs : FileSystem) : Prop where
  proper : ∀ location entry, fs.entry? location = some entry →
    ∀ name ∈ location, ProperName name
  above : ∀ location name entry, fs.entry? (location ++ [name]) = some entry →
    fs.isDirectory location = true

/-- Whether no name that leads to a file holds a backslash. -/
def FileSystem.PlainNames (fs : FileSystem) : Prop :=
  ∀ location content, fs.content? location = some content →
    ∀ name ∈ location, '\\' ∉ name.toList

namespace FileSystem

theorem WellFormed.isDirectory_front {fs : FileSystem} (wellFormed : fs.WellFormed)
    {front back : Location} {entry : Entry} (stands : fs.entry? (front ++ back) = some entry)
    (below : back ≠ []) : fs.isDirectory front = true := by
  induction back using List.reverseRecOn generalizing entry with
  | nil => exact absurd rfl below
  | append_singleton back name inductionHypothesis =>
      rw [← List.append_assoc] at stands
      have directory := wellFormed.above _ _ _ stands
      by_cases last : back = []
      · simpa [last] using directory
      · exact inductionHypothesis (isDirectory_eq_true_iff.mp directory) last

theorem mem_filesBelow {fs : FileSystem} {location below : Location} {content : ByteArray}
    (nonempty : below ≠ []) :
    (below, content) ∈ fs.filesBelow location ↔
      fs.content? (location ++ below) = some content := by
  have notTop : location ++ below ≠ [] := by simp [nonempty]
  have stored : fs.content? (location ++ below) = some content ↔
      (location ++ below, Entry.file content) ∈ fs.entries.toList := by
    rw [content?_eq_some_iff, entry?, if_neg notTop,
      Std.ExtTreeMap.mem_toList_iff_getElem?_eq_some]
  rw [stored, filesBelow, List.mem_filterMap]
  constructor
  · rintro ⟨⟨other, entry⟩, member, selected⟩
    cases entry with
    | directory => cases selected
    | file own =>
        dsimp only at selected
        split at selected
        · next isPrefix =>
            obtain ⟨rest, rfl⟩ := List.isPrefixOf_iff_prefix.mp isPrefix
            cases selected
            simpa using member
        · cases selected
  · intro member
    refine ⟨_, member, ?_⟩
    simp

theorem content?_of_filesBelow_eq_nil {fs : FileSystem} {base location : Location}
    (nothing : fs.filesBelow base = []) (inside : isInside base location = true) :
    fs.content? location = none := by
  obtain ⟨below, nonempty, rfl⟩ := isInside_iff.mp inside
  rw [Option.eq_none_iff_forall_ne_some]
  intro content stands
  have member := (mem_filesBelow nonempty).mpr stands
  rw [nothing] at member
  cases member

end FileSystem

/-! ## Deciding -/

instance (name : String) : Decidable (ProperName name) :=
  decidable_of_iff ((name.toList ≠ [] ∧ name.toList ≠ ['.']) ∧ name.toList ≠ ['.', '.'] ∧
      '/' ∉ name.toList)
    ⟨fun ⟨solid, down, whole⟩ => ⟨solid, down, whole⟩,
      fun proper => ⟨proper.solid, proper.down, proper.whole⟩⟩

namespace FileSystem

theorem entryAt_of_mem_toList {fs : FileSystem} {location : Location} {entry : Entry}
    (below : location ≠ []) :
    (location, entry) ∈ fs.entries.toList ↔ fs.entry? location = some entry := by
  unfold entry?
  rw [if_neg below, Std.ExtTreeMap.mem_toList_iff_getElem?_eq_some]

theorem wellFormed_iff (fs : FileSystem) :
    fs.WellFormed ↔ ∀ pair ∈ fs.entries.toList,
      (∀ name ∈ pair.1, ProperName name) ∧ fs.isDirectory pair.1.dropLast = true := by
  constructor
  · rintro wellFormed ⟨location, entry⟩ member
    by_cases top : location = []
    · subst top
      exact ⟨nofun, rfl⟩
    · have stands := (entryAt_of_mem_toList top).mp member
      refine ⟨wellFormed.proper location entry stands, ?_⟩
      rw [← List.dropLast_concat_getLast top] at stands
      exact wellFormed.above _ _ entry stands
  · intro checked
    refine ⟨fun location entry stands name isName => ?_, fun location name entry stands => ?_⟩
    · have below : location ≠ [] := List.ne_nil_of_mem isName
      exact (checked _ ((entryAt_of_mem_toList below).mpr stands)).1 name isName
    · have below : location ++ [name] ≠ [] := by simp
      have directory := (checked _ ((entryAt_of_mem_toList below).mpr stands)).2
      rwa [List.dropLast_concat] at directory

instance (fs : FileSystem) : Decidable fs.WellFormed :=
  decidable_of_iff _ fs.wellFormed_iff.symm

theorem plainNames_iff (fs : FileSystem) :
    fs.PlainNames ↔ ∀ pair ∈ fs.filesBelow [], ∀ name ∈ pair.1, '\\' ∉ name.toList := by
  constructor
  · rintro plain ⟨location, content⟩ member name isName
    have below : location ≠ [] := List.ne_nil_of_mem isName
    exact plain location content ((mem_filesBelow below).mp member) name isName
  · intro checked location content stands name isName
    have below : location ≠ [] := List.ne_nil_of_mem isName
    exact checked (location, content) ((mem_filesBelow below).mpr stands) name isName

instance (fs : FileSystem) : Decidable fs.PlainNames :=
  decidable_of_iff _ fs.plainNames_iff.symm

end FileSystem

/-! ## Listed files -/

/-- A source file that stands below a project, with the names that lead to it. -/
structure SourceFile.Stands (fs : FileSystem) (directory : Location) (project : String)
    (file : SourceFile) (names : List String) : Prop where
  existing : fs.existing? directory project = some (place directory project)
  holds : ∃ content, fs.content? (place directory project ++ names) = some content
  nonempty : names ≠ []
  proper : ∀ name ∈ names, ProperName name
  named : Scan.sourceFile? project names = some file

theorem FileSystem.eq_place_of_existing? {fs : FileSystem} {directory location : Location}
    {path : String} (existing : fs.existing? directory path = some location) :
    location = place directory path :=
  eq_place_of_destination? (Option.filter_eq_some_iff.mp existing).1

namespace Scan

def judges (fs : FileSystem) (directory : Location) (environment : Environment)
    (selection : Selection) : Judges :=
  ⟨directory, selection, IgnoreFiles.groups fs directory, UserIgnore.rules fs directory environment⟩

/-- What a scan makes of the file that some names lead to. -/
def listed? (judges : Judges) (base : Location) (project : String) (below : Location) :
    Option SourceFile :=
  if below ≠ [] ∧ isKept judges base below then sourceFile? project below else none

def listing (fs : FileSystem) (directory : Location) (environment : Environment)
    (project : String) (included excluded skipped : List String) :
    Except Error (List SourceFile) :=
  (Selection.ofSettings project included excluded skipped).map fun selection =>
    match fs.existing? directory project with
    | none => []
    | some base => (fs.filesBelow base).filterMap fun pair =>
        listed? (judges fs directory environment selection) base project pair.1

variable {fs : FileSystem} {directory : Location} {environment : Environment} {project : String}
  {included excluded skipped : List String} {files : List SourceFile} {file : SourceFile}

theorem sourceFiles_eq (fs : FileSystem) (directory : Location) (environment : Environment)
    (project : String) (included excluded skipped : List String) :
    sourceFiles fs directory environment project included excluded skipped =
      (listing fs directory environment project included excluded skipped).map
        (List.mergeSort · le) := by
  unfold sourceFiles listing
  cases Selection.ofSettings project included excluded skipped with
  | error error => rfl
  | ok selection =>
      cases fs.existing? directory project with
      | none => exact congrArg Except.ok List.mergeSort_nil.symm
      | some base => rfl

theorem listed?_eq_some {judges : Judges} {base below : Location}
    (isListed : listed? judges base project below = some file) :
    below ≠ [] ∧ isKept judges base below = true ∧ sourceFile? project below = some file := by
  unfold listed? at isListed
  split at isListed
  · next condition => exact ⟨condition.1, condition.2, isListed⟩
  · cases isListed

theorem listing_eq_ok
    (found : listing fs directory environment project included excluded skipped = .ok files)
    (member : file ∈ files) :
    ∃ selection below content,
      Selection.ofSettings project included excluded skipped = .ok selection ∧
      fs.existing? directory project = some (place directory project) ∧
      (below, content) ∈ fs.filesBelow (place directory project) ∧
      listed? (judges fs directory environment selection) (place directory project) project
        below = some file := by
  unfold listing at found
  cases selected : Selection.ofSettings project included excluded skipped with
  | error error =>
      rw [selected] at found
      cases found
  | ok selection =>
      rw [selected] at found
      have isListing := Except.ok.inj found
      split at isListing
      · subst isListing
        cases member
      · next base existing =>
          obtain rfl := FileSystem.eq_place_of_existing? existing
          rw [← isListing] at member
          obtain ⟨⟨below, content⟩, isBelow, isListed⟩ := List.mem_filterMap.mp member
          exact ⟨selection, below, content, rfl, existing, isBelow, isListed⟩

theorem exists_listing
    (found : sourceFiles fs directory environment project included excluded skipped = .ok files) :
    ∃ unsorted,
      listing fs directory environment project included excluded skipped = .ok unsorted ∧
      files = unsorted.mergeSort le := by
  rw [sourceFiles_eq] at found
  cases isListing : listing fs directory environment project included excluded skipped with
  | error error =>
      rw [isListing] at found
      cases found
  | ok unsorted =>
      rw [isListing] at found
      exact ⟨unsorted, rfl, (Except.ok.inj found).symm⟩

theorem sourceFile?_eq_some {project : String} {names : List String} {file : SourceFile}
    (named : sourceFile? project names = some file) :
    file.path = Path.join project ("/".intercalate names) ∧
      file.relative = Path.forwardSlashes ("/".intercalate names) ∧
      Dialect.ofPath? file.relative = some file.dialect := by
  unfold sourceFile? at named
  dsimp only at named
  obtain ⟨dialect, isDialect, rfl⟩ := Option.map_eq_some_iff.mp named
  exact ⟨rfl, rfl, isDialect⟩

end Scan

theorem Scan.place_of_listed? {fs : FileSystem} (wellFormed : fs.WellFormed)
    {directory base : Location} {judges : Judges} {project : String} {below : Location}
    {content : ByteArray} {file : SourceFile} (isBase : base = place directory project)
    (member : (below, content) ∈ fs.filesBelow base)
    (isListed : listed? judges base project below = some file) :
    place directory file.path = base ++ below := by
  obtain ⟨nonempty, _, named⟩ := listed?_eq_some isListed
  have holds := (FileSystem.mem_filesBelow nonempty).mp member
  have proper : ∀ name ∈ below, ProperName name := fun name isName =>
    wellFormed.proper _ _ (FileSystem.content?_eq_some_iff.mp holds) name
      (List.mem_append_right _ isName)
  rw [(sourceFile?_eq_some named).1, FileSystem.place_join_names directory proper, isBase]

/-- What a scan lists stands below the project, and the scan keeps it. -/
theorem SourceFile.exists_kept {fs : FileSystem} (wellFormed : fs.WellFormed)
    {directory : Location} {environment : Environment} {project : String}
    {included excluded skipped : List String} {files : List SourceFile} {file : SourceFile}
    (found : Scan.sourceFiles fs directory environment project included excluded skipped =
      .ok files)
    (member : file ∈ files) :
    ∃ selection names, Selection.ofSettings project included excluded skipped = .ok selection ∧
      Scan.isKept (Scan.judges fs directory environment selection) (place directory project)
        names = true ∧
      file.Stands fs directory project names := by
  obtain ⟨unsorted, isListing, rfl⟩ := Scan.exists_listing found
  obtain ⟨selection, below, content, selected, existing, isBelow, isListed⟩ :=
    Scan.listing_eq_ok isListing (List.mem_mergeSort.mp member)
  obtain ⟨nonempty, kept, named⟩ := Scan.listed?_eq_some isListed
  have holds := (FileSystem.mem_filesBelow nonempty).mp isBelow
  refine ⟨selection, below, selected, kept, existing, ⟨content, holds⟩, nonempty, ?_, named⟩
  intro name isName
  exact wellFormed.proper _ _ (FileSystem.content?_eq_some_iff.mp holds) name
    (List.mem_append_right _ isName)

theorem SourceFile.exists_stands {fs : FileSystem} (wellFormed : fs.WellFormed)
    {directory : Location} {environment : Environment} {project : String}
    {included excluded skipped : List String} {files : List SourceFile} {file : SourceFile}
    (found : Scan.sourceFiles fs directory environment project included excluded skipped =
      .ok files)
    (member : file ∈ files) : ∃ names, file.Stands fs directory project names := by
  obtain ⟨_, names, _, _, stands⟩ := exists_kept wellFormed found member
  exact ⟨names, stands⟩

namespace Path

theorem join_ne_empty {base path : String} (nonempty : base ≠ "") : join base path ≠ "" := by
  have baseSome : base.isEmpty = false := by simpa using nonempty
  unfold join
  split
  · next absolute =>
      rintro rfl
      cases absolute
  · rw [baseSome]
    simp only [Bool.false_eq_true, if_false]
    split <;> simp [nonempty]

/-- The file name of a path that ends in a proper name. -/
theorem fileName?_of_ends {path : String} {before : List Char} {name : String}
    (proper : ProperName name)
    (ends : path.toList = name.toList ∨ path.toList = before ++ '/' :: name.toList) :
    fileName? path = some name := by
  have alone : pieces '/' name.toList = [name.toList] := pieces_of_not_mem proper.whole
  have last : (components path).getLast? = some (.normal name) := by
    rcases ends with ends | ends
    · have whole : pieces '/' path.toList = [name.toList] := by rw [ends, alone]
      rw [components_eq_of_pieces whole, Component.ofFirstPiece, if_neg proper.solid.1,
        if_neg proper.solid.2, Component.ofPiece_name proper]
      rfl
    · obtain ⟨first, rest, cut⟩ := List.exists_cons_of_ne_nil (pieces_ne_nil '/' before)
      have whole : pieces '/' path.toList = first :: (rest ++ [name.toList]) := by
        rw [ends, pieces_append_separator, cut, alone, List.cons_append]
      rw [components_eq_of_pieces whole, List.filterMap_append]
      simp [Component.ofPiece_name proper]
  rw [fileName?, last]

end Path

/-- Whether a name is one that no file of a dialect has. -/
structure Dialect.IsForeign (name : String) : Prop where
  proper : ProperName (lowerAscii name)
  extension : (Path.extension? (lowerAscii name)).bind ofExtension? = none
  plain : Path.forwardSlashes name = name

instance (name : String) : Decidable (Dialect.IsForeign name) :=
  decidable_of_iff (ProperName (lowerAscii name) ∧
      (Path.extension? (lowerAscii name)).bind Dialect.ofExtension? = none ∧
      Path.forwardSlashes name = name)
    ⟨fun parts => ⟨parts.1, parts.2.1, parts.2.2⟩,
      fun foreign => ⟨foreign.proper, foreign.extension, foreign.plain⟩⟩

theorem Dialect.IsForeign.ofPath?_eq_none {path name : String} {before : List Char}
    (foreign : IsForeign name)
    (ends : path.toList = name.toList ∨ path.toList = before ++ '/' :: name.toList) :
    ofPath? path = none := by
  have lowered : (lowerAscii path).toList = (lowerAscii name).toList ∨
      (lowerAscii path).toList = before.map Char.toLower ++ '/' :: (lowerAscii name).toList := by
    simp only [lowerAscii, String.toList_ofList]
    rcases ends with ends | ends
    · exact Or.inl (by rw [ends])
    · refine Or.inr ?_
      rw [ends, List.map_append, List.map_cons]
      rfl
  have extension : Path.extension? (lowerAscii path) = Path.extension? (lowerAscii name) := by
    rw [Path.extension?, Path.fileName?_of_ends foreign.proper lowered, Path.extension?,
      @Path.fileName?_of_ends _ [] _ foreign.proper (Or.inl rfl)]
  rw [ofPath?, extension, foreign.extension]
  split <;> rfl

/-- A source file by the names that would lead to it from a project. -/
structure SourceFile.Named (project : String) (file : SourceFile) (names : List String) :
    Prop where
  nonempty : names ≠ []
  proper : ∀ name ∈ names, ProperName name
  plain : ∀ name ∈ names, '\\' ∉ name.toList
  named : Scan.sourceFile? project names = some file

theorem Path.forwardSlashes_of_not_mem {path : String} (plain : '\\' ∉ path.toList) :
    Path.forwardSlashes path = path := by
  rw [← String.toList_inj, Path.forwardSlashes, replaceChar, String.toList_ofList]
  refine (List.map_congr_left ?_).trans (List.map_id _)
  intro c member
  have differs : c ≠ '\\' := by
    rintro rfl
    exact plain member
  exact if_neg differs

theorem Path.forwardSlashes_names {names : List String}
    (plain : ∀ name ∈ names, '\\' ∉ name.toList) :
    Path.forwardSlashes ("/".intercalate names) = "/".intercalate names := by
  refine forwardSlashes_of_not_mem ?_
  induction names with
  | nil => simp
  | cons name rest inductionHypothesis =>
      have headPlain := plain name List.mem_cons_self
      have restPlain := inductionHypothesis fun other member =>
        plain other (List.mem_cons_of_mem _ member)
      cases rest with
      | nil => simpa using headPlain
      | cons next others =>
          rw [String.intercalate_cons_cons]
          simp only [String.toList_append, List.mem_append, not_or]
          exact ⟨⟨headPlain, by decide⟩, restPlain⟩

theorem SourceFile.Named.eq_of_relative_eq {project : String} {file other : SourceFile}
    {names otherNames : List String} (isNamed : file.Named project names)
    (otherIsNamed : other.Named project otherNames) (same : file.relative = other.relative) :
    file = other := by
  rw [(Scan.sourceFile?_eq_some isNamed.named).2.1,
    (Scan.sourceFile?_eq_some otherIsNamed.named).2.1, Path.forwardSlashes_names isNamed.plain,
    Path.forwardSlashes_names otherIsNamed.plain] at same
  have samePieces := congrArg (fun text : String => pieces '/' text.toList) same
  rw [Path.pieces_names isNamed.nonempty isNamed.proper,
    Path.pieces_names otherIsNamed.nonempty otherIsNamed.proper] at samePieces
  have sameNames : names = otherNames :=
    List.map_injective_iff.mpr (fun _ _ equal => String.toList_inj.mp equal) samePieces
  subst sameNames
  exact Option.some.inj (isNamed.named.symm.trans otherIsNamed.named)

namespace SourceFile.Stands

variable {fs : FileSystem} {directory : Location} {project : String} {file : SourceFile}
  {names : List String}

theorem path_eq (stands : file.Stands fs directory project names) :
    file.path = Path.join project ("/".intercalate names) :=
  (Scan.sourceFile?_eq_some stands.named).1

theorem relative_eq (stands : file.Stands fs directory project names) :
    file.relative = Path.forwardSlashes ("/".intercalate names) :=
  (Scan.sourceFile?_eq_some stands.named).2.1

theorem project_ne_empty (stands : file.Stands fs directory project names) : project ≠ "" := by
  rintro rfl
  have found := (Option.filter_eq_some_iff.mp stands.existing).1
  cases found

theorem place_path (stands : file.Stands fs directory project names) :
    place directory file.path = place directory project ++ names := by
  rw [stands.path_eq, FileSystem.place_join_names directory stands.proper]

/-- No listed file has a name that belongs to no dialect. -/
theorem getLast?_names_ne (stands : file.Stands fs directory project names) {name : String}
    (foreign : Dialect.IsForeign name) : names.getLast? ≠ some name := by
  intro isLast
  obtain ⟨front, rfl⟩ := List.getLast?_eq_some_iff.mp isLast
  have isDialect := (Scan.sourceFile?_eq_some stands.named).2.2
  rw [stands.relative_eq] at isDialect
  have slashed : (Path.forwardSlashes ("/".intercalate (front ++ [name]))).toList =
        name.toList ∨
      ∃ before, (Path.forwardSlashes ("/".intercalate (front ++ [name]))).toList =
        before ++ '/' :: name.toList := by
    by_cases alone : front = []
    · subst alone
      exact Or.inl (by rw [List.nil_append, String.intercalate_singleton, foreign.plain])
    · refine Or.inr ⟨("/".intercalate front).toList.map fun c => if c = '\\' then '/' else c, ?_⟩
      have own := congrArg String.toList foreign.plain
      rw [Path.forwardSlashes, replaceChar, String.toList_ofList] at own ⊢
      rw [String.intercalate_append_of_ne_nil alone (by simp), String.toList_append,
        String.toList_append, List.map_append, List.map_append, List.append_assoc,
        String.intercalate_singleton, own]
      rfl
  rcases slashed with slashed | ⟨before, slashed⟩
  · rw [@Dialect.IsForeign.ofPath?_eq_none _ _ [] foreign (Or.inl slashed)] at isDialect
    cases isDialect
  · rw [foreign.ofPath?_eq_none (Or.inr slashed)] at isDialect
    cases isDialect

theorem getLast?_names (stands : file.Stands fs directory project names) :
    names.getLast? ≠ some BuildCache.fileName :=
  stands.getLast?_names_ne (by decide)

theorem reaches_project (stands : file.Stands fs directory project names) :
    fs.Reaches directory project := by
  have found := (Option.filter_eq_some_iff.mp stands.existing).1
  rw [FileSystem.destination?] at found
  split at found
  · exact found
  · cases found

theorem reaches (stands : file.Stands fs directory project names)
    (wellFormed : fs.WellFormed) : fs.Reaches directory file.path := by
  rw [stands.path_eq]
  refine FileSystem.reaches_join_names stands.project_ne_empty stands.nonempty stands.proper
    stands.reaches_project ?_
  rintro front back rfl below
  obtain ⟨content, holds⟩ := stands.holds
  rw [← List.append_assoc] at holds
  exact wellFormed.isDirectory_front (FileSystem.content?_eq_some_iff.mp holds) below

/-- What is written elsewhere does not change what a listed file reads as. -/
theorem read?_eq {touched : Set Location} {after : FileSystem}
    (stands : file.Stands fs directory project names) (wellFormed : fs.WellFormed)
    (keeps : Keeps touched fs after) (outside : place directory file.path ∉ touched) :
    after.read? directory file.path = fs.read? directory file.path := by
  have reaches := stands.reaches wellFormed
  rw [reaches.read?_eq, (reaches.mono keeps.directories).read?_eq, keeps.contents _ outside]

/-! ## Relative paths -/

theorem plain (stands : file.Stands fs directory project names) (plain : fs.PlainNames) :
    ∀ name ∈ names, '\\' ∉ name.toList := by
  obtain ⟨content, holds⟩ := stands.holds
  exact fun name member => plain _ _ holds name (List.mem_append_right _ member)

theorem isNamed (stands : file.Stands fs directory project names) (plain : fs.PlainNames) :
    file.Named project names :=
  ⟨stands.nonempty, stands.proper, stands.plain plain, stands.named⟩

/-- Without backslashes in their names, files with the same relative path are the same file. -/
theorem eq_of_relative_eq {otherFs : FileSystem} {other : SourceFile} {otherNames : List String}
    (stands : file.Stands fs directory project names)
    (otherStands : other.Stands otherFs directory project otherNames)
    (plain : fs.PlainNames) (otherPlain : otherFs.PlainNames)
    (same : file.relative = other.relative) : file = other :=
  (stands.isNamed plain).eq_of_relative_eq (otherStands.isNamed otherPlain) same

/-! ## Outputs -/

/-- Listed files that share the place of their outputs are the same file. -/
theorem eq_of_place_output {otherFs : FileSystem} {other : SourceFile}
    {otherNames : List String} {root out within otherWithin : String}
    (stands : file.Stands fs directory project names)
    (otherStands : other.Stands otherFs directory project otherNames) (rooted : root ≠ "")
    (found : Path.below? file.path root = some within)
    (otherFound : Path.below? other.path root = some otherWithin)
    (same : place directory (Path.join out within) =
      place directory (Path.join out otherWithin)) : file = other := by
  rw [stands.path_eq] at found
  rw [otherStands.path_eq] at otherFound
  have sameNames : names = otherNames :=
    FileSystem.names_eq_of_place_output stands.project_ne_empty rooted stands.nonempty
      otherStands.nonempty stands.proper otherStands.proper found otherFound same
  subst sameNames
  exact Option.some.inj (stands.named.symm.trans otherStands.named)

theorem output_ne_cache {root out within : String}
    (stands : file.Stands fs directory project names) (rooted : root ≠ "")
    (found : Path.below? file.path root = some within) :
    place directory (Path.join out within) ≠
      place directory (Path.join out BuildCache.fileName) := by
  have cachePlace : place directory (Path.join out BuildCache.fileName) =
      place directory out ++ [BuildCache.fileName] := by
    rw [FileSystem.place_join directory (by decide)]
    rfl
  rw [stands.path_eq] at found
  rw [cachePlace]
  intro isCache
  rcases FileSystem.getLast?_place_output directory out stands.project_ne_empty rooted
      stands.nonempty stands.proper found with same | last
  · rw [isCache] at same
    simp at same
  · rw [isCache, List.getLast?_concat] at last
    exact stands.getLast?_names last.symm

end SourceFile.Stands

end SourceQuote

import SourceQuote.Proofs.Scan.Locality
import SourceQuote.Proofs.Scan.Selection
import SourceQuote.Proofs.Scan.Skipping

/-!
Contract: how far the ignore files of a project are honoured.

Owns: the order in which ignore files are asked, and that a scan lists nothing that an ignore file
in the project directory drops, unless an ignore file that is asked before keeps it or a pattern
that includes is about it.

A file is listed if neither it nor a directory above it is dropped, so the rules are asked about
every place on the way. Patterns that include are asked before all ignore files. One that is about
a file keeps it, whatever the ignore files say of the file itself.
-/

namespace SourceQuote

open SourceQuote.FileSystem (place)

/-- Of the answers in a sorted list the first one counts: it comes from a given item that has an
answer, or from one that stands before it. -/
theorem exists_of_findSome?_of_pairwise {α β : Type} {R : α → α → Prop} {answer : α → Option β}
    {items : List α} {own : α} {result : β} (sorted : items.Pairwise R)
    (found : items.findSome? answer = some result) (member : own ∈ items)
    (speaks : answer own ≠ none) :
    ∃ first ∈ items, answer first = some result ∧ (first = own ∨ R first own) := by
  induction sorted with
  | nil => cases member
  | @cons item rest before _ inductionHypothesis =>
      rw [List.findSome?_cons] at found
      cases isAnswer : answer item with
      | some other =>
          rw [isAnswer] at found
          cases found
          refine ⟨item, List.mem_cons_self, isAnswer, ?_⟩
          rcases List.mem_cons.mp member with same | later
          · exact Or.inl same.symm
          · exact Or.inr (before own later)
      | none =>
          rw [isAnswer] at found
          have later : own ∈ rest := by
            rcases List.mem_cons.mp member with rfl | later
            · exact absurd isAnswer speaks
            · exact later
          obtain ⟨first, isFirst, answered, order⟩ := inductionHypothesis found later
          exact ⟨first, List.mem_cons_of_mem _ isFirst, answered, order⟩

/-! ## Ignore files -/

namespace IgnoreFiles

variable {fs : FileSystem} {here location : Location} {name : String} {content : ByteArray}
  {isDirectory : Bool}

theorem mem_sites {site : Site} :
    site ∈ sites fs name ↔ ∃ content, fs.content? (site.directory ++ [name]) = some content ∧
      site = ⟨site.directory, rulesIn content⟩ := by
  rw [sites, deepestFirst, List.mem_mergeSort, List.mem_filterMap]
  constructor
  · rintro ⟨⟨other, content⟩, member, selected⟩
    dsimp only at selected
    split at selected
    · next last =>
        cases selected
        obtain ⟨front, rfl⟩ := List.getLast?_eq_some_iff.mp last
        have stands := (FileSystem.mem_filesBelow (by simp)).mp member
        refine ⟨content, ?_, rfl⟩
        rw [List.dropLast_concat]
        exact stands
    · cases selected
  · rintro ⟨content, stands, isSite⟩
    have member := (@FileSystem.mem_filesBelow fs [] (site.directory ++ [name]) content
      (by simp)).mpr stands
    refine ⟨_, member, ?_⟩
    dsimp only
    rw [if_pos List.getLast?_concat, List.dropLast_concat]
    exact congrArg some isSite.symm

theorem sites_pairwise (fs : FileSystem) (name : String) :
    (sites fs name).Pairwise fun first second =>
      second.directory.length ≤ first.directory.length := by
  unfold sites deepestFirst
  refine (List.pairwise_mergeSort ?_ ?_ _).imp fun ordered => of_decide_eq_true ordered
  · intro first second third
    simp only [decide_eq_true_eq]
    omega
  · intro first second
    simp only [Bool.or_eq_true, decide_eq_true_eq]
    omega

theorem below?_append {directory below : Location} (nonempty : below ≠ []) :
    below? directory (directory ++ below) = some below := by
  induction directory with
  | nil =>
      obtain ⟨first, rest, rfl⟩ := List.exists_cons_of_ne_nil nonempty
      rfl
  | cons first rest inductionHypothesis =>
      rw [List.cons_append, below?, if_pos rfl, inductionHypothesis]

/-- Two sites of one name that speak about a place differently lie at different depths. -/
theorem length_ne_of_verdict? {first second : Site} (isFirst : first ∈ sites fs name)
    (isSecond : second ∈ sites fs name)
    (kept : first.verdict? location isDirectory = some .keep)
    (dropped : second.verdict? location isDirectory = some .drop) :
    first.directory.length ≠ second.directory.length := by
  intro same
  obtain ⟨firstBelow, firstFound, _⟩ := Option.bind_eq_some_iff.mp kept
  obtain ⟨secondBelow, secondFound, _⟩ := Option.bind_eq_some_iff.mp dropped
  have split := (below?_eq_some firstFound).2.symm.trans (below?_eq_some secondFound).2
  have sameDirectory := (List.append_inj split same).1
  obtain ⟨firstContent, firstStands, isFile⟩ := mem_sites.mp isFirst
  obtain ⟨secondContent, secondStands, isOther⟩ := mem_sites.mp isSecond
  rw [sameDirectory, secondStands] at firstStands
  cases firstStands
  rw [isFile, sameDirectory, ← isOther, dropped] at kept
  cases kept

/-- Whether a place is kept by an ignore file that is asked before the one of a name in a
directory: one with a name that is asked before, or one of the same name further down. -/
def IsLifted (fs : FileSystem) (directory : Location) (name : String) (location : Location)
    (isDirectory : Bool) : Prop :=
  ∃ other otherName content, otherName ∈ names ∧
    fs.content? (other ++ [otherName]) = some content ∧
    (names.idxOf otherName < names.idxOf name ∨
      otherName = name ∧ directory.length < other.length) ∧
    Site.verdict? ⟨other, rulesIn content⟩ location isDirectory = some .keep

/-- Of the sites of one name that speak about a place, one that keeps it and is asked first lies
further down than any that drops it. -/
theorem exists_deeper {own : Site} (member : own ∈ sites fs name)
    (dropped : own.verdict? location isDirectory = some .drop)
    (answer : (sites fs name).findSome? (fun site => site.verdict? location isDirectory) =
      some .keep) :
    ∃ site ∈ sites fs name, site.verdict? location isDirectory = some .keep ∧
      own.directory.length < site.directory.length := by
  have speaks : own.verdict? location isDirectory ≠ none := by
    rw [dropped]
    exact Option.some_ne_none _
  obtain ⟨site, isSite, keeps, order⟩ :=
    exists_of_findSome?_of_pairwise (sites_pairwise fs name) answer member speaks
  have apart := length_ne_of_verdict? isSite member keeps dropped
  have deeper : own.directory.length ≤ site.directory.length := by
    rcases order with same | deeper
    · rw [same]
    · exact deeper
  exact ⟨site, isSite, keeps, by omega⟩

/-- What the ignore files answer by their names is answered before any exclusion list is asked. -/
theorem verdict?_of_names {verdict : Verdict}
    (found : names.findSome? (fun name =>
      (sites fs name).findSome? fun site => site.verdict? location isDirectory) = some verdict) :
    verdict? (groups fs here) location isDirectory = some verdict := by
  have mapped : (names.map (sites fs)).findSome? (fun group =>
      group.findSome? fun site => site.verdict? location isDirectory) = some verdict := by
    rw [List.findSome?_map]
    exact found
  rw [IgnoreFiles.verdict?, groups, List.findSome?_append, mapped, Option.some_or]

theorem names_pairwise :
    names.Pairwise fun first second => names.idxOf first < names.idxOf second := by
  decide

/-- What the rules of an ignore file drop is dropped by all ignore files together, unless one that
is asked before keeps it. -/
theorem isLifted_of_verdict? {directory below : Location} (isName : name ∈ names)
    (stands : fs.content? (directory ++ [name]) = some content) (nonempty : below ≠ [])
    (ignored : verdictOf? (rulesIn content) ("/".intercalate below) isDirectory = some .drop)
    (kept : verdict? (groups fs here) (directory ++ below) isDirectory ≠ some .drop) :
    IsLifted fs directory name (directory ++ below) isDirectory := by
  have ownMember : (⟨directory, rulesIn content⟩ : Site) ∈ sites fs name :=
    mem_sites.mpr ⟨content, stands, rfl⟩
  have ownVerdict : Site.verdict? ⟨directory, rulesIn content⟩ (directory ++ below) isDirectory =
      some .drop := by
    rw [Site.verdict?, below?_append nonempty]
    exact ignored
  have ownSpeaks : (sites fs name).findSome?
      (fun site => site.verdict? (directory ++ below) isDirectory) ≠ none := by
    intro silent
    rw [List.findSome?_eq_none_iff.mp silent _ ownMember] at ownVerdict
    cases ownVerdict
  -- So some name answers, and it answers that the place is kept.
  have answered : ∃ verdict, names.findSome? (fun other =>
      (sites fs other).findSome? fun site => site.verdict? (directory ++ below) isDirectory) =
        some verdict := by
    rw [← Option.isSome_iff_exists, List.findSome?_isSome_iff]
    exact ⟨name, isName, Option.isSome_iff_ne_none.mpr ownSpeaks⟩
  obtain ⟨verdict, found⟩ := answered
  have isKeep : verdict = .keep := by
    cases verdict with
    | keep => rfl
    | drop => exact absurd (verdict?_of_names found) kept
  subst isKeep
  obtain ⟨otherName, isOther, answer, before⟩ :=
    exists_of_findSome?_of_pairwise names_pairwise found isName ownSpeaks
  rcases before with same | before
  · subst same
    obtain ⟨site, isSite, keeps, deeper⟩ := exists_deeper ownMember ownVerdict answer
    obtain ⟨otherContent, otherStands, isFile⟩ := mem_sites.mp isSite
    exact ⟨site.directory, otherName, otherContent, isOther, otherStands, Or.inr ⟨rfl, deeper⟩,
      isFile ▸ keeps⟩
  · obtain ⟨site, isSite, keeps⟩ := List.exists_of_findSome?_eq_some answer
    obtain ⟨otherContent, otherStands, isFile⟩ := mem_sites.mp isSite
    exact ⟨site.directory, otherName, otherContent, isOther, otherStands, Or.inl before,
      isFile ▸ keeps⟩

end IgnoreFiles

/-! ## Scans -/

namespace Scan

variable {fs : FileSystem} {directory : Location} {environment : Environment} {project : String}
  {included excluded skipped : List String} {files : List SourceFile} {file : SourceFile}

/-- No place on the way to a file that is kept is dropped. -/
theorem isDropped_of_isKept {judges : Judges} {base front back : Location}
    (kept : isKept judges base (front ++ back) = true) (nonempty : front ≠ []) :
    isDropped judges base front (!back.isEmpty) = false := by
  unfold isKept at kept
  rw [Bool.and_eq_true, Bool.not_eq_true', List.all_eq_true] at kept
  by_cases here : back = []
  · simpa [here] using kept.1
  · have above := kept.2 front (mem_directoriesAbove_append nonempty here)
    have isDirectory : (!back.isEmpty) = true := by simpa using here
    rw [isDirectory]
    simpa using above

/-- A listed file is not ignored by an ignore file in the project directory: where its rules drop
the file or a directory above it, an ignore file that is asked before keeps that place, or a
pattern that includes is about it. -/
theorem sourceFiles_honour {name : String} {content : ByteArray} (wellFormed : fs.WellFormed)
    (isName : name ∈ IgnoreFiles.names)
    (stands : fs.content? (place directory project ++ [name]) = some content)
    (found : sourceFiles fs directory environment project included excluded skipped = .ok files)
    (member : file ∈ files) :
    ∃ names, place directory file.path = place directory project ++ names ∧
      ∀ front back, names = front ++ back → front ≠ [] →
        IgnoreFiles.verdictOf? (IgnoreFiles.rulesIn content) ("/".intercalate front)
          (!back.isEmpty) = some .drop →
        IgnoreFiles.IsLifted fs (place directory project) name
            (place directory project ++ front) (!back.isEmpty) ∨
          Selection.Includes included ("/".intercalate front) (!back.isEmpty) := by
  obtain ⟨selection, names, selected, kept, isListed⟩ :=
    SourceFile.exists_kept wellFormed found member
  refine ⟨names, isListed.place_path, fun front back split nonempty ignored => ?_⟩
  subst split
  have undropped := isDropped_of_isKept kept nonempty
  unfold isDropped Judges.verdict? at undropped
  dsimp only [judges] at undropped
  cases own : selection.verdict? ("/".intercalate front) (!back.isEmpty) with
  | some verdict =>
      rw [own] at undropped
      cases verdict with
      | keep => exact Or.inr (Selection.includes_of_verdict? selected own)
      | drop => cases undropped
  | none =>
      have notDropped : IgnoreFiles.verdict? (IgnoreFiles.groups fs directory)
          (place directory project ++ front) (!back.isEmpty) ≠ some .drop := by
        intro dropped
        rw [own, Option.none_or, dropped] at undropped
        cases undropped
      exact Or.inl (IgnoreFiles.isLifted_of_verdict? isName stands nonempty ignored notDropped)

end Scan

/-! ## Ignore files that are not honoured -/

namespace Sample

/-- A project with a directory that one ignore file drops and another one keeps. -/
def liftedFiles : FileSystem :=
  holding [("/p/.gitignore", "gen/\n"), ("/p/.tsqignore", "!gen/\n"), ("/p/gen/a.ts", "")]

/-- A project whose ignore file names its only source. -/
def ignoredFiles : FileSystem :=
  holding [("/p/.tsqignore", "a.ts\n"), ("/p/a.ts", "")]

end Sample

namespace Scan

open Sample

theorem sourceFiles_honour_lifted :
    IgnoreFiles.verdictOf? (IgnoreFiles.rulesIn "gen/\n".toByteArray) "gen" true = some .drop ∧
    ∃ names, place [] "/p/gen/a.ts" = place [] "/p" ++ names ∧
      ∀ front back, names = front ++ back → front ≠ [] →
        IgnoreFiles.verdictOf? (IgnoreFiles.rulesIn "gen/\n".toByteArray)
          ("/".intercalate front) (!back.isEmpty) = some .drop →
        IgnoreFiles.IsLifted liftedFiles (place [] "/p") ".gitignore" (place [] "/p" ++ front)
            (!back.isEmpty) ∨
          Selection.Includes ["*.ts"] ("/".intercalate front) (!back.isEmpty) := by
  have wellFormed : liftedFiles.WellFormed := by decide +kernel
  have isName : ".gitignore" ∈ IgnoreFiles.names := by decide
  have stands : liftedFiles.content? (place [] "/p" ++ [".gitignore"]) =
      some "gen/\n".toByteArray := by decide +kernel
  have found : sourceFiles liftedFiles [] [] "/p" ["*.ts"] [] [] =
      .ok [⟨"/p/gen/a.ts", "gen/a.ts", .typeScript⟩] := by decide +kernel
  have honoured := sourceFiles_honour wellFormed isName stands found List.mem_cons_self
  exact ⟨by decide +kernel, honoured⟩

/-- A pattern that includes a file has it listed although the ignore file of the project names
it. -/
theorem sourceFiles_list_ignored :
    ignoredFiles.WellFormed ∧
    ignoredFiles.content? (place [] "/p" ++ [".tsqignore"]) = some "a.ts\n".toByteArray ∧
    sourceFiles ignoredFiles [] [] "/p" ["*.ts"] [] [] =
      .ok [⟨"/p/a.ts", "a.ts", .typeScript⟩] ∧
    IgnoreFiles.verdictOf? (IgnoreFiles.rulesIn "a.ts\n".toByteArray) "a.ts" false =
      some .drop := by
  decide +kernel

end Scan

end SourceQuote

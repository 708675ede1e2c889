import SourceQuote.Proofs.Glob.Wildcards
import SourceQuote.Proofs.Path.Parent
import SourceQuote.Proofs.Scan.Enumeration
import SourceQuote.Proofs.Scan.Selection

/-!
Contract: the directory that a scan skips.

Owns: the names whose rule is about them, that the rules of directories to skip have the last word
on them, and that no file at or below such a directory is listed.

A directory to skip is written as a pattern. One that holds stars and question marks accepts itself
besides others, and so is skipped like one without.

Does not own: directories whose path from the project holds an opening bracket, an opening brace or
a backslash, or ends in a blank. Their pattern may be one of other names only, and then what is
below them is listed like anything else.
-/

namespace SourceQuote

open SourceQuote.Text
open SourceQuote.FileSystem (place)
open SourceQuote.Path (Component ProperName)

/-! ## Names and rules -/

/-- Names that lead down to a directory and that a rule is about which spells them. -/
structure Path.SkippableRoute (names : List String) : Prop where
  nonempty : names ≠ []
  proper : ∀ name ∈ names, ProperName name
  opens : ∀ c ∈ ("/".intercalate names).toList, Glob.OpensNothing c
  solid : ∀ c ∈ ("/".intercalate names).toList.getLast?, isBlank c = false

namespace Path.SkippableRoute

variable {names : List String} (route : SkippableRoute names)
include route

/-- The text of the names ends in a character that is neither blank nor a slash. -/
theorem exists_last : ∃ front last, ("/".intercalate names).toList = front ++ [last] ∧
    isBlank last = false ∧ last ≠ '/' := by
  obtain ⟨before, name, rfl⟩ := (List.eq_nil_or_concat names).resolve_left route.nonempty
  rw [List.concat_eq_append] at route ⊢
  have proper := route.proper name (by simp)
  obtain ⟨front, last, cut⟩ :=
    (List.eq_nil_or_concat name.toList).resolve_left proper.solid.1
  rw [List.concat_eq_append] at cut
  have ends : ∃ start, ("/".intercalate (before ++ [name])).toList = start ++ [last] := by
    by_cases alone : before = []
    · exact ⟨front, by simp [alone, cut]⟩
    · refine ⟨("/".intercalate before).toList ++ '/' :: front, ?_⟩
      rw [String.intercalate_append_of_ne_nil alone (by simp), String.toList_append,
        String.toList_append]
      simp [cut]
  obtain ⟨start, whole⟩ := ends
  refine ⟨start, last, whole, route.solid last (by simp [whole]), ?_⟩
  rintro rfl
  exact proper.whole (by simp [cut])

theorem backslash_not_mem : '\\' ∉ ("/".intercalate names).toList := fun member =>
  route.opens _ member (by simp)

theorem skipLine?_eq {project directory : String}
    (below : Path.below? directory project = some ("/".intercalate names)) :
    Selection.skipLine? project directory = some ("!/" ++ "/".intercalate names) := by
  have some : ("/".intercalate names).isEmpty = false := by
    obtain ⟨front, last, whole, _⟩ := route.exists_last
    rw [Bool.eq_false_iff, ne_eq, String.isEmpty_iff]
    intro empty
    rw [empty] at whole
    simp at whole
  simp only [Selection.skipLine?, below, forwardSlashes_of_not_mem route.backslash_not_mem, some,
    Bool.false_eq_true, if_false]

theorem trimLine_skip :
    Rule.trimLine ("!/" ++ "/".intercalate names).toList =
      '!' :: '/' :: ("/".intercalate names).toList := by
  obtain ⟨front, last, whole, solid, _⟩ := route.exists_last
  have line : ("!/" ++ "/".intercalate names).toList =
      '!' :: '/' :: ("/".intercalate names).toList := by
    rw [String.toList_append]
    rfl
  have unescaped : ['\\', ' '].isSuffixOf ("!/" ++ "/".intercalate names).toList = false := by
    rw [Bool.eq_false_iff, line]
    intro escaped
    have member : '\\' ∈ '!' :: '/' :: ("/".intercalate names).toList :=
      (List.isSuffixOf_iff_suffix.mp escaped).subset List.mem_cons_self
    exact route.backslash_not_mem (by simpa using member)
  rw [Rule.trimLine, unescaped, if_neg Bool.false_ne_true, trimEnd, String.toList_ofList,
    String.toList_ofList, line, whole]
  simp [solid]

theorem withoutSlash_skip :
    (Rule.Written.ofLine ('!' :: '/' :: ("/".intercalate names).toList)).withoutSlash =
      ⟨("/".intercalate names).toList, true, true, false⟩ := by
  obtain ⟨front, last, whole, _, down⟩ := route.exists_last
  rw [Rule.Written.ofLine]
  unfold Rule.Written.withoutSlash
  simp [whole, down]

/-- The line for the names is no comment and not empty. -/
theorem ofLine_skip_ne_silent :
    Rule.ofLine .refused ("!/" ++ "/".intercalate names) ≠ .silent := by
  have speaks : ("!/" ++ "/".intercalate names).toList.head? ≠ some '#' := by
    rw [String.toList_append]
    simp
  rw [Rule.ofLine, if_neg speaks, route.trimLine_skip]
  dsimp only
  split <;> nofun

theorem isAbout_skip {rule : Rule} (isDirectory : Bool)
    (isRule : Rule.ofLine .refused ("!/" ++ "/".intercalate names) = .rule rule) :
    rule.isAbout ("/".intercalate names) isDirectory = true := by
  obtain ⟨glob, parsed, rfl⟩ := Rule.ofLine_eq_rule route.trimLine_skip isRule
  rw [route.withoutSlash_skip, Rule.Written.wholePattern] at parsed
  simp only [Bool.true_or, if_true] at parsed
  have accepts : glob.accepts ("/".intercalate names) = true := by
    split at parsed
    · next deep =>
        rw [String.ofList_append, String.ofList_toList] at parsed
        exact Glob.accepts_inside parsed route.opens (List.isSuffixOf_iff_suffix.mp deep)
    · next flat =>
        rw [String.ofList_toList] at parsed
        exact Glob.accepts_self parsed route.opens fun deep =>
          flat (List.isSuffixOf_iff_suffix.mpr deep)
  rw [Rule.isAbout, route.withoutSlash_skip, accepts]
  simp

end Path.SkippableRoute

/-! ## The last word -/

/-- The rules of directories to skip stand last, so what one of them is about is dropped. -/
theorem Selection.verdict?_of_skipped {project out : String}
    {included excluded skipped names : List String} {selection : Selection}
    (route : Path.SkippableRoute names)
    (below : Path.below? out project = some ("/".intercalate names)) (member : out ∈ skipped)
    (selected : ofSettings project included excluded skipped = .ok selection)
    (isDirectory : Bool) :
    selection.verdict? ("/".intercalate names) isDirectory = some .drop := by
  have skipLine := route.skipLine?_eq below
  have isLine : "!/" ++ "/".intercalate names ∈ skipped.filterMap (skipLine? project) :=
    List.mem_filterMap.mpr ⟨out, member, skipLine⟩
  have wellFormed := (rulesOf_eq_ok (rulesOf_of_ofSettings selected)).2 _
    (List.mem_append_right _ isLine)
  cases isRule : Rule.ofLine .refused ("!/" ++ "/".intercalate names) with
  | silent => exact absurd isRule route.ofLine_skip_ne_silent
  | malformed => exact absurd isRule wellFormed
  | rule rule =>
      refine verdict?_of_negated (rules_eq selected) (fun other => negated_of_mem) ?_
        (route.isAbout_skip isDirectory isRule)
      exact List.mem_append_right _ (mem_rulesIn.mpr ⟨_, isLine, isRule⟩)

/-! ## Listed files -/

namespace Scan

theorem mem_directoriesAbove_append {names more : Location} (nonempty : names ≠ [])
    (below : more ≠ []) : names ∈ directoriesAbove (names ++ more) := by
  induction names with
  | nil => exact absurd rfl nonempty
  | cons name rest inductionHypothesis =>
      obtain ⟨next, others, split⟩ := List.exists_cons_of_ne_nil
        (show rest ++ more ≠ [] by simp [below])
      rw [List.cons_append, split, directoriesAbove.eq_3 _ _ (by simp), ← split]
      by_cases alone : rest = []
      · rw [alone]
        exact List.mem_cons_self
      · exact List.mem_cons_of_mem _ (List.mem_map_of_mem (inductionHypothesis alone))

/-- Nothing at or below a directory that the selection drops is kept. -/
theorem isKept_of_dropped {judges : Judges} {base names more : Location} (nonempty : names ≠ [])
    (dropped : ∀ isDirectory, judges.selection.verdict? ("/".intercalate names) isDirectory =
      some .drop) : isKept judges base (names ++ more) = false := by
  have isDropped : ∀ isDirectory, isDropped judges base names isDirectory = true := by
    intro isDirectory
    rw [Scan.isDropped, Judges.verdict?, dropped]
    rfl
  unfold isKept
  by_cases here : more = []
  · simp [here, isDropped]
  · have above := mem_directoriesAbove_append nonempty here
    rw [Bool.and_eq_false_iff]
    right
    rw [List.all_eq_false]
    exact ⟨names, above, by simp [isDropped]⟩

end Scan

/-- No file at or below a directory that a scan skips is listed. -/
theorem SourceFile.not_prefix_of_skipped {fs : FileSystem} (wellFormed : fs.WellFormed)
    {directory : Location} {environment : Environment} {project out : String}
    {included excluded skipped skippedNames : List String} {files : List SourceFile}
    {file : SourceFile} (route : Path.SkippableRoute skippedNames)
    (below : Path.below? out project = some ("/".intercalate skippedNames))
    (isSkipped : out ∈ skipped)
    (found : Scan.sourceFiles fs directory environment project included excluded skipped =
      .ok files)
    (member : file ∈ files) :
    ¬ place directory project ++ skippedNames <+: place directory file.path := by
  obtain ⟨selection, names, selected, kept, stands⟩ := exists_kept wellFormed found member
  rw [stands.place_path, List.prefix_append_right_inj]
  rintro ⟨more, rfl⟩
  rw [Scan.isKept_of_dropped route.nonempty
    (Selection.verdict?_of_skipped route below isSkipped selected)] at kept
  cases kept

namespace Scan

variable {fs : FileSystem} {directory : Location} {environment : Environment}
  {project outDir : String} {included excluded skipped names : List String}
  {files : List SourceFile}

/-- A scan that skips an output directory of skippable names lists nothing that lies there,
whatever else is included, excluded and skipped. -/
theorem sourceFiles_outside_skipped (wellFormed : fs.WellFormed)
    (route : Path.SkippableRoute names) (spells : Path.Spells outDir names)
    (isSkipped : Path.join project outDir ∈ skipped)
    (found : sourceFiles fs directory environment project included excluded skipped =
      .ok files) :
    ∀ file ∈ files,
      ¬ place directory (Path.join project outDir) <+: place directory file.path := by
  intro file member
  obtain ⟨_, stands⟩ := SourceFile.exists_stands wellFormed found member
  have below := Path.below?_join_names stands.project_ne_empty route.nonempty route.proper spells
  rw [FileSystem.place_of_below? directory stands.project_ne_empty route.nonempty route.proper
    below]
  exact SourceFile.not_prefix_of_skipped wellFormed route below isSkipped found member

end Scan

/-! ## A directory of wildcards, and one of a class -/

namespace Sample

/-- A project with a directory whose names are patterns. -/
def starryFiles : FileSystem :=
  holding [("/p/a.ts", ""), ("/p/gen*/?/**/b.ts", "")]

/-- A project with a directory whose name is a class of digits. -/
def bracketFiles : FileSystem :=
  holding [("/p/out[1]/a.ts", "")]

def bracketFile : SourceFile := ⟨"/p/out[1]/a.ts", "out[1]/a.ts", .typeScript⟩

theorem skippable_starry : Path.SkippableRoute ["gen*", "?", "**"] := by
  have text : ("/".intercalate ["gen*", "?", "**"]).toList =
      ['g', 'e', 'n', '*', '/', '?', '/', '*', '*'] := by decide +kernel
  refine ⟨by simp, by decide +kernel, ?_, ?_⟩
  · rw [text]
    simp [Glob.OpensNothing]
  · rw [text]
    simp
    decide

end Sample

namespace Scan

open Sample

theorem sourceFiles_outside_skipped_starry :
    (starryFiles.content? ["p", "gen*", "?", "**", "b.ts"]).isSome = true ∧
    sourceFiles starryFiles [] [] "/p" ["*.ts"] [] [Path.join "/p" "gen*/?/**/"] =
      .ok [⟨"/p/a.ts", "a.ts", .typeScript⟩] ∧
    ¬ place [] (Path.join "/p" "gen*/?/**/") <+: place [] "/p/a.ts" := by
  have wellFormed : starryFiles.WellFormed := by decide +kernel
  have spells : Path.Spells "gen*/?/**/" ["gen*", "?", "**"] := ⟨1, by decide +kernel⟩
  have found : sourceFiles starryFiles [] [] "/p" ["*.ts"] [] [Path.join "/p" "gen*/?/**/"] =
      .ok [⟨"/p/a.ts", "a.ts", .typeScript⟩] := by decide +kernel
  have outside := sourceFiles_outside_skipped wellFormed skippable_starry spells
    List.mem_cons_self found
  exact ⟨by decide +kernel, found, outside _ List.mem_cons_self⟩

/-- A directory whose name holds a class is read back: its rule is about other names. -/
theorem sourceFiles_inside_skipped_bracket :
    bracketFiles.WellFormed ∧ (∀ name ∈ ["out[1]"], ProperName name) ∧
    sourceFiles bracketFiles [] [] "/p" ["*.ts"] [] [Path.join "/p" "out[1]"] =
      .ok [bracketFile] ∧
    place [] (Path.join "/p" "out[1]") <+: place [] bracketFile.path := by
  decide +kernel

end Scan

end SourceQuote

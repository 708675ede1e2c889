import SourceQuote.Project.FileOutcome
import SourceQuote.Proofs.Pass.Rewriting

/-!
Contract: whose repositories the pass gives.

Owns: that a repository is that of the class it was extracted for, and that the pass gives one
repository for each marked class of a file, named by the file's path from the root.
-/

namespace SourceQuote

theorem Repository.classId_of_foldlM {outcomes : List MemberOutcome}
    {repository result : Repository}
    (added : outcomes.foldlM addOutcome repository = .ok result) :
    result.classId = repository.classId := by
  induction outcomes generalizing repository with
  | nil =>
      cases added
      rfl
  | cons outcome rest inductionHypothesis =>
      rw [List.foldlM_cons] at added
      cases outcome with
      | computedName line => exact inductionHypothesis added
      | quoted method quotation =>
          exact @inductionHypothesis (repository.insert method quotation) added
      | failed error => cases added

theorem extractClass_classId {source : String} {classNode : Node} {classId : ClassId}
    {repository : Repository} (extracted : extractClass source classNode classId = .ok repository) :
    repository.classId = classId :=
  Repository.classId_of_foldlM extracted

/-- What the pass quotes: every marked class, under its name. -/
theorem SourceUnit.transform_eq_ok {unit : SourceUnit} {options : PassOptions}
    {transformed : Transformed} (passed : unit.transform options = .ok transformed) :
    ∃ quoted : List QuotedClass,
      transformed.repositories = quoted.map QuotedClass.repository ∧
      quoted.map QuotedClass.site = unit.markedSites options.marker ∧
      ∀ each ∈ quoted, each.site.Quotes unit each.name each.repository := by
  obtain ⟨quoted, _, sites, quotes, rfl⟩ := exists_quoted passed
  exact ⟨quoted, rfl, sites, quotes⟩

/-- The module of a repository is that of its file, by the path it was read under. -/
theorem SourceUnit.moduleName_of_transform {unit : SourceUnit} {options : PassOptions}
    {transformed : Transformed} {repository : Repository}
    (passed : unit.transform options = .ok transformed)
    (member : repository ∈ transformed.repositories) :
    repository.classId.moduleName = Path.moduleName unit.path := by
  obtain ⟨quoted, repositories, _, quotes⟩ := transform_eq_ok passed
  rw [repositories] at member
  obtain ⟨each, isQuoted, rfl⟩ := List.mem_map.mp member
  rw [extractClass_classId (quotes each isQuoted).2, ClassId.forPath]

namespace Path

theorem forwardSlashes_idem (path : String) :
    forwardSlashes (forwardSlashes path) = forwardSlashes path := by
  unfold forwardSlashes Text.replaceChar
  rw [String.toList_ofList, List.map_map]
  congr 1
  apply List.map_congr_left
  intro c _
  by_cases backslash : c = '\\' <;> simp [backslash]

theorem moduleName_forwardSlashes (path : String) :
    moduleName (forwardSlashes path) = moduleName path := by
  rw [moduleName, forwardSlashes_idem, moduleName]

end Path

theorem ClassId.forPath_forwardSlashes (path name : String) :
    forPath (Path.forwardSlashes path) name = forPath path name := by
  rw [forPath, Path.moduleName_forwardSlashes, forPath]

namespace SourceFile

variable {context : BuildContext} {file : SourceFile} {within : String} {content : ByteArray}

theorem unit_path {unit : SourceUnit} (parsed : file.unit context within content = .ok unit) :
    unit.path = Path.forwardSlashes within := by
  unfold SourceFile.unit SourceUnit.parse SourceUnit.ofTree at parsed
  cases text : file.text content with
  | error error =>
      rw [text] at parsed
      cases parsed
  | ok source =>
      rw [text] at parsed
      cases tree : context.parser file.dialect.grammar source with
      | none =>
          simp only [bind, Except.bind, tree] at parsed
          cases parsed
      | some root =>
          simp only [bind, Except.bind, tree] at parsed
          split at parsed
          · cases parsed
          · cases parsed
            rfl

theorem transformed_eq_ok {transformed : Transformed}
    (passed : file.transformed context within content = .ok transformed) :
    ∃ unit, file.unit context within content = .ok unit ∧
      unit.transform context.options = .ok transformed := by
  rw [SourceFile.transformed] at passed
  cases parsed : file.unit context within content with
  | error error =>
      rw [parsed] at passed
      cases passed
  | ok unit =>
      rw [parsed] at passed
      exact ⟨unit, rfl, passed⟩

/-- The module of a repository is that of its file, by the path from the root. -/
theorem moduleName_of_transformed {transformed : Transformed} {repository : Repository}
    (passed : file.transformed context within content = .ok transformed)
    (member : repository ∈ transformed.repositories) :
    repository.classId.moduleName = Path.moduleName within := by
  obtain ⟨unit, parsed, transforms⟩ := transformed_eq_ok passed
  rw [SourceUnit.moduleName_of_transform transforms member, unit_path parsed,
    Path.moduleName_forwardSlashes]

end SourceFile

end SourceQuote

import Mathlib.Data.List.Count
import SourceQuote.Command.Run
import SourceQuote.Proofs.Pass.Extraction
import SourceQuote.Proofs.Pass.Repositories
import SourceQuote.Proofs.Project.FileBuild

/-!
Contract: one file, whoever asks.

Owns: that the path of a file decides the module names in what the pass gives, and nothing
else; that the class which the pass finds by its marker is the one found by its name, where
only one has that name; and from both, that the commands which show a file and the build
which writes it agree.

Does not own: what the cache may put in place of building a file, see
`Project.CacheConsistency`.
-/

namespace SourceQuote

variable {options : PassOptions}

/-! ## The path only names the module -/

/-- The same repository for the class of that name in another module. -/
def Repository.inModule (moduleName : String) (repository : Repository) : Repository :=
  ⟨⟨moduleName, repository.classId.name⟩, repository.quotations⟩

def QuotedClass.inModule (moduleName : String) (quoted : QuotedClass) : QuotedClass :=
  ⟨quoted.site, quoted.name, quoted.repository.inModule moduleName⟩

def Transformed.inModule (moduleName : String) (transformed : Transformed) : Transformed :=
  ⟨transformed.source, transformed.repositories.map (Repository.inModule moduleName)⟩

def SourceUnit.under (unit : SourceUnit) (path : String) : SourceUnit :=
  ⟨path, unit.dialect, unit.source, unit.root⟩

theorem extractClass_forPath (source : String) (classNode : Node) (path other name : String) :
    extractClass source classNode (.forPath other name) =
      (extractClass source classNode (.forPath path name)).map
        (Repository.inModule (Path.moduleName other)) := by
  rw [extractClass_eq, extractClass_eq]
  cases (namedMethods source classNode).mapM (quoteMember source) <;> rfl

theorem quoteSite_under (unit : SourceUnit) (path : String) (site : ClassSite) :
    quoteSite (unit.under path) site =
      (quoteSite unit site).map (QuotedClass.inModule (Path.moduleName path)) := by
  unfold quoteSite SourceUnit.under
  cases site.name? unit.source with
  | none => rfl
  | some name =>
      dsimp only
      rw [extractClass_forPath unit.source site.classNode unit.path path name]
      cases extractClass unit.source site.classNode (.forPath unit.path name) <;> rfl

/-- A registration names the class and not its module, so the edits are the same. -/
theorem QuotedClass.edits_inModule (quoted : QuotedClass) (unit : SourceUnit)
    (path moduleName : String) :
    (quoted.inModule moduleName).edits (unit.under path) options = quoted.edits unit options :=
  rfl

namespace SourceUnit

theorem transform_under (unit : SourceUnit) (options : PassOptions) (path : String) :
    (unit.under path).transform options =
      (unit.transform options).map (Transformed.inModule (Path.moduleName path)) := by
  have quoting : ((unit.under path).markedSites options.marker).mapM
      (quoteSite (unit.under path)) =
        ((unit.markedSites options.marker).mapM (quoteSite unit)).map
          (List.map (QuotedClass.inModule (Path.moduleName path))) := by
    rw [← mapM_map_result]
    exact congrArg (List.mapM · _) (funext (quoteSite_under unit path))
  rw [transform, transform, quoting]
  cases (unit.markedSites options.marker).mapM (quoteSite unit) with
  | error error => rfl
  | ok quoted =>
      have sameEdits : ((quoted.map (QuotedClass.inModule (Path.moduleName path))).flatMap
          fun each => each.edits (unit.under path) options) =
            quoted.flatMap fun each => each.edits unit options := by
        simp only [List.flatMap_map, QuotedClass.edits_inModule]
      have sameClasses : (quoted.map (QuotedClass.inModule (Path.moduleName path))).map
          QuotedClass.repository =
            (quoted.map QuotedClass.repository).map
              (Repository.inModule (Path.moduleName path)) := by
        rw [List.map_map, List.map_map]
        rfl
      change Except.ok (⟨Edit.apply unit.source _, _⟩ : Transformed) = _
      rw [sameEdits, sameClasses]
      rfl

theorem extractNamed_under (unit : SourceUnit) (path name : String) :
    (unit.under path).extractNamed name =
      (unit.extractNamed name).map (Option.map (Repository.inModule (Path.moduleName path))) := by
  have found : (unit.under path).classNamed? name = unit.classNamed? name := rfl
  rw [extractNamed, extractNamed, found]
  cases unit.classNamed? name with
  | none => rfl
  | some site =>
      dsimp only
      rw [under, extractClass_forPath unit.source site.classNode unit.path path name]
      cases extractClass unit.source site.classNode (.forPath unit.path name) <;> rfl

end SourceUnit

/-! ## Marked and named -/

theorem find?_of_count_eq_one {Item Value : Type} [DecidableEq Value]
    {name? : Item → Option Value} {items : List Item} {item : Item} {value : Value}
    (once : (items.filterMap name?).count value = 1)
    (member : item ∈ items) (named : name? item = some value) :
    items.find? (fun each => name? each = some value) = some item := by
  induction items with
  | nil => cases member
  | cons head rest inductionHypothesis =>
      by_cases first : name? head = some value
      · rw [List.find?_cons_of_pos (by simpa using first)]
        rw [List.filterMap_cons_some first, List.count_cons_self] at once
        rcases List.mem_cons.mp member with rfl | later
        · rfl
        · -- An item behind the first would be a second one.
          have second : value ∈ rest.filterMap name? := List.mem_filterMap.mpr ⟨item, later, named⟩
          have counted := List.count_pos_iff.mpr second
          omega
      · have later : item ∈ rest := by
          rcases List.mem_cons.mp member with rfl | later
          · exact absurd named first
          · exact later
        rw [List.find?_cons_of_neg (by simpa using first)]
        refine inductionHypothesis ?_ later
        rw [← once]
        cases other : name? head with
        | none => rw [List.filterMap_cons_none other]
        | some otherValue =>
            have differs : otherValue ≠ value := fun same => first (same ▸ other)
            rw [List.filterMap_cons_some other, List.count_cons_of_ne differs]

namespace SourceUnit

variable {unit : SourceUnit} {transformed : Transformed} {repository : Repository}

def NamesOnce (unit : SourceUnit) (name : String) : Prop :=
  (unit.classSites.filterMap fun site => site.name? unit.source).count name = 1

instance (unit : SourceUnit) (name : String) : Decidable (unit.NamesOnce name) :=
  inferInstanceAs (Decidable (_ = _))

/-- What the pass gives for a marked class is what extraction by its name gives, unless another
class has the name too. -/
theorem extractNamed_of_transform (passed : unit.transform options = .ok transformed)
    (member : repository ∈ transformed.repositories)
    (once : unit.NamesOnce repository.classId.name) :
    unit.extractNamed repository.classId.name = .ok (some repository) := by
  obtain ⟨quoted, repositories, sites, quotes⟩ := transform_eq_ok passed
  rw [repositories] at member
  obtain ⟨each, isQuoted, rfl⟩ := List.mem_map.mp member
  obtain ⟨named, extracted⟩ := quotes each isQuoted
  have isMarked : each.site ∈ unit.markedSites options.marker := by
    rw [← sites]
    exact List.mem_map_of_mem isQuoted
  have own : each.repository.classId = .forPath unit.path each.name := extractClass_classId extracted
  have ownName : each.repository.classId.name = each.name := by
    rw [own]
    rfl
  rw [ownName] at once ⊢
  have found : unit.classNamed? each.name = some each.site :=
    find?_of_count_eq_one once (List.mem_of_mem_filter isMarked) named
  rw [extractNamed, found]
  dsimp only
  rw [extracted]
  rfl

end SourceUnit

/-! ## Commands and builds -/

namespace SourceUnit

/-- Reading a text succeeds under every path or under none, with the same tree. -/
theorem parse_under (parser : Parser) (path other source : String) (dialect : Dialect) :
    (parse parser other source dialect).toOption =
      (parse parser path source dialect).toOption.map fun unit => unit.under other := by
  unfold parse
  cases parser dialect.grammar source with
  | none => rfl
  | some root =>
      dsimp only [ofTree]
      split <;> rfl

end SourceUnit

/-- A path leads to bytes that a build reads as a file of the same dialect. -/
structure Workspace.Reads (workspace : Workspace) (path : String) (context : BuildContext)
    (file : SourceFile) (content : ByteArray) : Prop where
  parser : workspace.parser = context.parser
  content : workspace.fs.read? workspace.directory path = some content
  dialect : Dialect.ofPath? (Path.forwardSlashes path) = some file.dialect

/-- What a request for a quotation is to show of the repository of a class. -/
def QuoteRequest.textIn (request : QuoteRequest) (kind : SpanKind) (repository : Repository) :
    Except Error String :=
  match repository.get? request.method with
  | none => .error (.build (.noMethod request.method request.className))
  | some quotation =>
      if request.names.isEmpty then .ok (quotation.template kind).renderAsDeclared
      else (quotation.template kind).renderTexts request.names

/-- The commands show of a file what a build makes of it. -/
structure FrontEndsAgree (workspace : Workspace) (path : String) (context : BuildContext)
    (file : SourceFile) (within : String) (content : ByteArray) : Prop where
  /-- A build writes and records the result of the pass. -/
  builds : ∀ fs status repositories,
    fs.read? context.directory file.path = some content →
    Path.below? file.path context.root = some within →
    (file.build context fs).2.1.result = .ok (status, repositories) →
    status ≠ .unchanged →
    ∃ transformed, file.transformed context within content = .ok transformed ∧
      repositories = transformed.repositories ∧
      (file.build context fs).1 =
        (fs.save context.directory (Path.join context.out within)
          transformed.source.toByteArray).fs
  /-- The output of the pass is shown, and nothing if a build cannot read or quote the file. -/
  transforms : ∀ marker,
    context.options = { marker := marker } →
    context.options.validate = .ok () →
    (workspace.transform path marker).result.toOption =
      (file.transformed context within content).toOption.map fun transformed =>
        .text transformed.source
  /-- A file that cannot be quoted is refused with the same error. -/
  refuses : ∀ marker unit error,
    context.options = { marker := marker } →
    context.options.validate = .ok () →
    file.unit context within content = .ok unit →
    unit.transform context.options = .error error →
    (workspace.transform path marker).result = .error error
  /-- What is shown of a method is taken from the repository of the build. -/
  quotes : ∀ unit transformed,
    file.unit context within content = .ok unit →
    unit.transform context.options = .ok transformed →
    ∀ repository ∈ transformed.repositories, unit.NamesOnce repository.classId.name →
    ∀ request kind,
      request.path = path →
      request.className = repository.classId.name →
      SpanKind.parse request.span = .ok kind →
      (workspace.quote request).result =
        (request.textIn kind repository).map fun text => .text (text ++ "\n")

namespace Workspace

variable {workspace : Workspace} {path within : String} {context : BuildContext}
  {file : SourceFile} {content : ByteArray}

theorem Reads.load (reads : workspace.Reads path context file content) (within : String) :
    (SourceUnit.load workspace.parser workspace.fs workspace.directory path).toOption =
      (file.unit context within content).toOption.map fun unit =>
        unit.under (Path.forwardSlashes path) := by
  unfold SourceUnit.load SourceFile.unit SourceFile.text
  dsimp only
  rw [reads.dialect, FileSystem.readText?, reads.content, reads.parser, Option.bind_some]
  cases String.fromUTF8? content with
  | none => rfl
  | some source => exact SourceUnit.parse_under _ _ _ source file.dialect

/-- A command reads a file if and only if the build does, and then the same tree. -/
theorem Reads.load_cases (reads : workspace.Reads path context file content) (within : String) :
    (∃ error other, file.unit context within content = .error error ∧
      SourceUnit.load workspace.parser workspace.fs workspace.directory path = .error other) ∨
    ∃ unit, file.unit context within content = .ok unit ∧
      SourceUnit.load workspace.parser workspace.fs workspace.directory path =
        .ok (unit.under (Path.forwardSlashes path)) := by
  have agree := reads.load within
  cases parsed : file.unit context within content with
  | error error =>
      cases loaded : SourceUnit.load workspace.parser workspace.fs workspace.directory path with
      | error other => exact .inl ⟨error, other, rfl, rfl⟩
      | ok other =>
          rw [parsed, loaded] at agree
          cases agree
  | ok unit =>
      cases loaded : SourceUnit.load workspace.parser workspace.fs workspace.directory path with
      | error other =>
          rw [parsed, loaded] at agree
          cases agree
      | ok other =>
          rw [parsed, loaded] at agree
          cases agree
          exact .inr ⟨unit, rfl, rfl⟩

theorem Reads.transform_of_parsed (reads : workspace.Reads path context file content)
    {marker : String} {unit : SourceUnit} (sameOptions : context.options = { marker := marker })
    (valid : context.options.validate = .ok ())
    (parsed : file.unit context within content = .ok unit) :
    (workspace.transform path marker).result =
      (unit.transform context.options).map fun transformed => .text transformed.source := by
  rcases reads.load_cases within with ⟨_, _, failed, _⟩ | ⟨other, otherParsed, loaded⟩
  · cases parsed.symm.trans failed
  · cases parsed.symm.trans otherParsed
    unfold Workspace.transform
    dsimp only
    rw [← sameOptions, valid]
    simp only [bind, Except.bind, loaded, SourceUnit.transform_under]
    cases unit.transform context.options <;> rfl

theorem Reads.transform (reads : workspace.Reads path context file content) (within : String)
    {marker : String} (sameOptions : context.options = { marker := marker })
    (valid : context.options.validate = .ok ()) :
    (workspace.transform path marker).result.toOption =
      (file.transformed context within content).toOption.map fun transformed =>
        .text transformed.source := by
  rcases reads.load_cases within with ⟨error, other, failed, refused⟩ | ⟨unit, parsed, _⟩
  · unfold Workspace.transform SourceFile.transformed
    dsimp only
    rw [← sameOptions, valid]
    simp only [bind, Except.bind, failed, refused]
    rfl
  · rw [reads.transform_of_parsed sameOptions valid parsed, SourceFile.transformed, parsed]
    change _ = (unit.transform context.options).toOption.map _
    cases unit.transform context.options <;> rfl

theorem Reads.quote (reads : workspace.Reads path context file content)
    {unit : SourceUnit} {transformed : Transformed} {repository : Repository}
    {request : QuoteRequest} {kind : SpanKind}
    (parsed : file.unit context within content = .ok unit)
    (passed : unit.transform context.options = .ok transformed)
    (member : repository ∈ transformed.repositories)
    (once : unit.NamesOnce repository.classId.name)
    (samePath : request.path = path)
    (sameClass : request.className = repository.classId.name)
    (isKind : SpanKind.parse request.span = .ok kind) :
    (workspace.quote request).result =
      (request.textIn kind repository).map fun text => .text (text ++ "\n") := by
  have extracted := SourceUnit.extractNamed_of_transform passed member once
  have shown : quotedText request kind (unit.under (Path.forwardSlashes path)) =
      request.textIn kind repository := by
    rw [quotedText, sameClass, SourceUnit.extractNamed_under, extracted, QuoteRequest.textIn,
      sameClass]
    have sameQuotation : ∀ moduleName, (repository.inModule moduleName).get? request.method =
        repository.get? request.method := fun _ => rfl
    cases quoted : repository.get? request.method <;>
      simp only [bind, Except.bind, Except.map, Option.map_some, sameQuotation, quoted]
  rcases reads.load_cases within with ⟨_, _, failed, _⟩ | ⟨other, otherParsed, loaded⟩
  · cases parsed.symm.trans failed
  · cases parsed.symm.trans otherParsed
    unfold Workspace.quote
    rw [isKind, samePath, loaded]
    exact congrArg (Except.map _) shown

end Workspace

theorem SourceFile.built_of_result {context : BuildContext} {file : SourceFile}
    {fs : FileSystem} {within : String} {content : ByteArray} {status : FileStatus}
    {repositories : List Repository}
    (read : fs.read? context.directory file.path = some content)
    (below : Path.below? file.path context.root = some within)
    (succeeded : (file.build context fs).2.1.result = .ok (status, repositories))
    (rebuilt : status ≠ .unchanged) :
    ∃ transformed, file.transformed context within content = .ok transformed ∧
      repositories = transformed.repositories ∧
      (file.build context fs).1 =
        (fs.save context.directory (Path.join context.out within)
          transformed.source.toByteArray).fs := by
  have built := file.builds_build context fs
  generalize (file.build context fs).1 = after at built ⊢
  generalize (file.build context fs).2.1 = outcome at built succeeded
  cases built with
  | unreadable unread => cases succeeded
  | outside _ _ => cases succeeded
  | unchanged _ _ _ =>
      cases succeeded
      exact absurd rfl rebuilt
  | refused _ _ _ => cases succeeded
  | @produced otherContent otherWithin transformed otherRead otherBelow passed =>
      cases read.symm.trans otherRead
      cases below.symm.trans otherBelow
      refine ⟨transformed, passed, ?_, rfl⟩
      dsimp only at succeeded
      split at succeeded
      · cases succeeded
        rfl
      · cases succeeded

theorem Workspace.Reads.agree {workspace : Workspace} {path : String} {context : BuildContext}
    {file : SourceFile} {content : ByteArray}
    (reads : workspace.Reads path context file content) (within : String) :
    FrontEndsAgree workspace path context file within content where
  builds _ _ _ read below succeeded rebuilt :=
    SourceFile.built_of_result read below succeeded rebuilt
  transforms _ sameOptions valid := reads.transform within sameOptions valid
  refuses _ _ _ sameOptions valid parsed failed := by
    rw [reads.transform_of_parsed sameOptions valid parsed, failed]
    rfl
  quotes _ _ parsed passed _ member once _ _ samePath sameClass isKind :=
    reads.quote parsed passed member once samePath sameClass isKind

/-- Two results of the pass that differ in nothing but the modules of their classes. -/
structure Transformed.AgreesBut (moduleName otherName : String)
    (transformed other : Transformed) : Prop where
  source : transformed.source = other.source
  repositories : List.Forall₂ (fun one another : Repository =>
      one.classId.moduleName = moduleName ∧ another.classId.moduleName = otherName ∧
      one.classId.name = another.classId.name ∧ one.quotations = another.quotations)
    transformed.repositories other.repositories

theorem Transformed.agreesBut_inModule {transformed : Transformed} {moduleName : String}
    (own : ∀ repository ∈ transformed.repositories, repository.classId.moduleName = moduleName)
    (otherName : String) :
    AgreesBut moduleName otherName transformed (transformed.inModule otherName) := by
  refine ⟨rfl, ?_⟩
  rw [inModule, List.forall₂_map_right_iff, List.forall₂_same]
  exact fun repository member => ⟨own repository member, rfl, rfl, rfl⟩

/-- The front ends agree. Under any two paths a text is refused with the same error or gives
the same output and the same quotations, class by class, and only the modules differ. A class
that the pass quotes is quoted alike when it is asked for by a name that no other class has.
Hence what the commands show of a file is what a build makes of it. -/
theorem front_ends_agree (unit : SourceUnit) (options : PassOptions) :
    (∀ path,
      (∃ error, unit.transform options = .error error ∧
        (unit.under path).transform options = .error error) ∨
      ∃ transformed other, unit.transform options = .ok transformed ∧
        (unit.under path).transform options = .ok other ∧
        transformed.AgreesBut (Path.moduleName unit.path) (Path.moduleName path) other) ∧
    (∀ transformed, unit.transform options = .ok transformed →
      ∀ repository ∈ transformed.repositories, unit.NamesOnce repository.classId.name →
        unit.extractNamed repository.classId.name = .ok (some repository)) ∧
    ∀ workspace path context file within content,
      Workspace.Reads workspace path context file content →
        FrontEndsAgree workspace path context file within content := by
  refine ⟨?_, ?_, ?_⟩
  · intro path
    rw [SourceUnit.transform_under]
    cases passed : unit.transform options with
    | error error => exact .inl ⟨error, rfl, rfl⟩
    | ok transformed =>
        refine .inr ⟨transformed, _, rfl, rfl, Transformed.agreesBut_inModule ?_ _⟩
        exact fun repository member => SourceUnit.moduleName_of_transform passed member
  · intro transformed passed repository member once
    exact SourceUnit.extractNamed_of_transform passed member once
  · intro workspace path context file within content reads
    exact reads.agree within

namespace Sample

def servedClass : Node :=
  node "class_declaration" none true 0 24
    [mark 0,
     node "class" none false 8 13 [],
     node "type_identifier" (some "name") true 14 15 [],
     node "class_body" (some "body") true 15 24 [shortMethod 16]]

def servedText : String := "@quoted class A\x7bf(a)\x7ba\x7d\x7d"

def servedRoot : Node := node "program" none true 0 24 [servedClass]

/-- The file as a build reads it, by its path from the root. -/
def served : SourceUnit := ⟨"a.js", .javaScript, servedText, servedRoot⟩

def servedFile : SourceFile := ⟨"/p/lib/a.js", "lib/a.js", .javaScript⟩

def server : Workspace where
  parser := fun _ _ => some servedRoot
  fs := ((FileSystem.empty.put ["p"] .directory).put ["p", "lib"] .directory).put
    ["p", "lib", "a.js"] (.file servedText.toByteArray)
  directory := ["p"]
  environment := []

def servedContext : BuildContext where
  parser := fun _ _ => some servedRoot
  directory := []
  root := "/p/lib"
  out := "/p/dist"
  options := {}
  cache := none

theorem reads_served :
    server.Reads "lib/a.js" servedContext servedFile servedText.toByteArray :=
  ⟨rfl, by decide +kernel, by decide +kernel⟩

end Sample

theorem front_ends_agree_served :
    (∃ transformed other repository,
      Sample.served.transform {} = .ok transformed ∧
      (Sample.served.under "lib/a.js").transform {} = .ok other ∧
      transformed.AgreesBut "a" "lib.a" other ∧
      repository ∈ transformed.repositories ∧
      Sample.served.extractNamed "A" = .ok (some repository)) ∧
    (Sample.server.quote ⟨"lib/a.js", "A", "f", "body", ["x"]⟩).result = .ok (.text "x\n") := by
  obtain ⟨paths, named, commands⟩ := front_ends_agree Sample.served {}
  have quoting : ∃ each quotation,
      (Sample.served.markedSites "quoted").mapM (quoteSite Sample.served) = .ok [each] ∧
      each.repository.classId = ⟨"a", "A"⟩ ∧
      each.repository.get? "f" = some quotation ∧
      quotation.body.renderTexts ["x"] = .ok "x" := ⟨_, _, rfl, rfl, rfl, rfl⟩
  obtain ⟨each, quotation, quoting, own, quoted, rendered⟩ := quoting
  obtain ⟨transformed, passed, repositories⟩ : ∃ transformed,
      Sample.served.transform {} = .ok transformed ∧
      transformed.repositories = [each.repository] := by
    rw [SourceUnit.transform, quoting]
    exact ⟨_, rfl, rfl⟩
  have isQuoted : each.repository ∈ transformed.repositories := by
    rw [repositories]
    exact List.mem_singleton_self _
  have once : Sample.served.NamesOnce each.repository.classId.name := by
    rw [own]
    decide
  have parsed : Sample.servedFile.unit Sample.servedContext "a.js" Sample.servedText.toByteArray =
      .ok Sample.served := rfl
  refine ⟨?_, ?_⟩
  · rcases paths "lib/a.js" with ⟨error, failed, _⟩ | ⟨one, other, onePassed, otherPassed, agrees⟩
    · cases failed.symm.trans passed
    · cases onePassed.symm.trans passed
      have byName := named transformed passed each.repository isQuoted once
      rw [own] at byName
      exact ⟨transformed, other, each.repository, passed, otherPassed, agrees, isQuoted, byName⟩
  · have agree := commands _ _ _ _ "a.js" _ Sample.reads_served
    have shown := agree.quotes _ _ parsed passed each.repository isQuoted once
      ⟨"lib/a.js", "A", "f", "body", ["x"]⟩ .bodyOnly rfl (by rw [own]) rfl
    rw [shown, QuoteRequest.textIn, quoted]
    exact congrArg (Except.map _) rendered

end SourceQuote

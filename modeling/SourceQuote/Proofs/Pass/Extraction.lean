import SourceQuote.Pass.ClassBody
import SourceQuote.Proofs.Containers.Maps
import SourceQuote.Proofs.FirstFailure
import SourceQuote.Proofs.Method.Occurrences

/-!
Contract: the quotations that a class has.

Owns: the members of a class that count (`namedMethods`), what quoting one of them gives, and the
theorem on extraction: it quotes these members one after the other up to the first failure, and
gathers them in a map that keeps first places and last values.

Nothing else in a class body counts. Not only does the formula leave it out: taking any other
member out of a body, with the decorators in front of it, changes nothing (`LeavesOut`).
-/

namespace SourceQuote

variable {source : String} {classId : ClassId}

/-! ## Members that count -/

/-- A node declares a method that is no accessor, under a name that is known in advance and is not
that of the constructor. A method without any name is one, though it cannot be quoted. -/
structure Node.DeclaresMethod (source : String) (node : Node) : Prop where
  kind : node.kind = "method_definition"
  notComputed : ∀ name ∈ node.fieldChild? "name", name.kind ≠ "computed_property_name"
  notConstructor : ∀ name ∈ node.fieldChild? "name", methodNameText source name ≠ "constructor"
  notAccessor : ∀ child ∈ node.children, child.info.named = false →
    child.kind ≠ "get" ∧ child.kind ≠ "set"

namespace Node

variable {node : Node}

theorem hasComputedName_eq_false :
    hasComputedName node = false ↔
      ∀ name ∈ node.fieldChild? "name", name.kind ≠ "computed_property_name" := by
  unfold hasComputedName
  cases node.fieldChild? "name" <;> simp

theorem isOrdinaryMethod_iff :
    isOrdinaryMethod source node = true ↔
      node.kind = "method_definition" ∧
        (∀ name ∈ node.fieldChild? "name", methodNameText source name ≠ "constructor") ∧
        ∀ child ∈ node.children, child.info.named = false →
          child.kind ≠ "get" ∧ child.kind ≠ "set" := by
  unfold isOrdinaryMethod
  cases node.fieldChild? "name" <;> simp [and_assoc]

theorem declaresMethod_iff :
    isOrdinaryMethod source node = true ∧ hasComputedName node = false ↔
      node.DeclaresMethod source := by
  rw [isOrdinaryMethod_iff, hasComputedName_eq_false]
  constructor
  · rintro ⟨⟨kind, notConstructor, notAccessor⟩, notComputed⟩
    exact ⟨kind, notComputed, notConstructor, notAccessor⟩
  · intro declares
    exact ⟨⟨declares.kind, declares.notConstructor, declares.notAccessor⟩, declares.notComputed⟩

instance (source : String) (node : Node) : Decidable (node.DeclaresMethod source) :=
  decidable_of_iff _ declaresMethod_iff

/-- Whether a node among the children of a class body counts. -/
def counts (source : String) (node : Node) : Bool :=
  node.info.named ∧ node.DeclaresMethod source

end Node

def namedMethods (source : String) (classNode : Node) : List Placed :=
  match classNode.fieldChild? "body" with
  | none => []
  | some body => (Placed.children body).filter fun member => member.node.counts source

def quoteMember (source : String) (member : Placed) : Except Error (String × Quotation) := do
  let method ← MethodDeclaration.ofNode source member
  let quotation ← method.quote
  return (method.name, quotation)

/-! ## Extraction is quoting those members -/

namespace MemberOutcome

variable {member : Placed}

theorem ofMember?_of_declares (declares : member.node.DeclaresMethod source) :
    ofMember? source member = some (ofDeclaration source member) := by
  obtain ⟨ordinary, fixed⟩ := Node.declaresMethod_iff.mpr declares
  simp [ofMember?, ordinary, fixed]

/-- A member that does not count has no outcome, or one that leaves the repository alone. -/
theorem ofMember?_of_not_declares (other : ¬ member.node.DeclaresMethod source) :
    ofMember? source member = none ∨
      ∃ line, ofMember? source member = some (.computedName line) := by
  rw [← Node.declaresMethod_iff] at other
  unfold ofMember?
  by_cases ordinary : isOrdinaryMethod source member.node = true
  · have computed : hasComputedName member.node = true := by
      simpa [ordinary] using other
    exact .inr ⟨_, by rw [if_pos ordinary, if_pos computed]⟩
  · exact .inl (if_neg ordinary)

theorem addOutcome_ofDeclaration (repository : Repository) (member : Placed) :
    repository.addOutcome (ofDeclaration source member) =
      (quoteMember source member).map fun entry => repository.insert entry.1 entry.2 := by
  unfold ofDeclaration quoteMember
  cases MethodDeclaration.ofNode source member with
  | error error => rfl
  | ok method =>
      simp only [bind, Except.bind]
      cases method.quote with
      | error error => rfl
      | ok quotation => rfl

end MemberOutcome

/-- Adding the outcomes of members is quoting those that count, up to the first failure. -/
theorem foldlM_addOutcome (members : List Placed) (repository : Repository) :
    (members.filterMap (MemberOutcome.ofMember? source)).foldlM Repository.addOutcome repository =
      ((members.filter fun member => member.node.DeclaresMethod source).mapM
        (quoteMember source)).map fun entries =>
          entries.foldl (fun repository entry => repository.insert entry.1 entry.2) repository := by
  induction members generalizing repository with
  | nil => rfl
  | cons member rest inductionHypothesis =>
      by_cases declares : member.node.DeclaresMethod source
      · rw [List.filterMap_cons_some (MemberOutcome.ofMember?_of_declares declares),
          List.foldlM_cons, MemberOutcome.addOutcome_ofDeclaration,
          List.filter_cons_of_pos (by simpa using declares), List.mapM_cons]
        cases quoteMember source member with
        | error error => rfl
        | ok entry =>
            change List.foldlM _ (repository.insert entry.1 entry.2) _ = _
            rw [inductionHypothesis]
            cases List.mapM (quoteMember source) _ with
            | error error => rfl
            | ok entries => rfl
      · rw [List.filter_cons_of_neg (by simpa using declares), ← inductionHypothesis]
        rcases MemberOutcome.ofMember?_of_not_declares declares with none | ⟨line, computed⟩
        · rw [List.filterMap_cons_none none]
        · rw [List.filterMap_cons_some computed]
          rfl

theorem Repository.foldl_insert (entries : List (String × Quotation)) (repository : Repository) :
    entries.foldl (fun repository entry => repository.insert entry.1 entry.2) repository =
      ⟨repository.classId,
        entries.foldl (fun map entry => map.insert entry.1 entry.2) repository.quotations⟩ := by
  induction entries generalizing repository with
  | nil => rfl
  | cons entry rest inductionHypothesis => exact inductionHypothesis _

/-- The repository of a class is the map of the quotations of the members that count. -/
theorem extractClass_eq (source : String) (classNode : Node) (classId : ClassId) :
    extractClass source classNode classId =
      ((namedMethods source classNode).mapM (quoteMember source)).map fun entries =>
        ⟨classId, .ofList entries⟩ := by
  unfold extractClass memberOutcomes namedMethods
  cases classNode.fieldChild? "body" with
  | none => rfl
  | some body =>
      simp only [foldlM_addOutcome, List.filter_filter, Node.counts, Bool.decide_and,
        Bool.decide_eq_true, Repository.foldl_insert, Bool.and_comm]
      rfl

/-! ## Members that do not count

A method among its siblings is quoted with the decorators in front of it, so what stands before it
matters as far as `leadingNodes` looks, and no further. -/

/-- What quoting the members that count gives, for some nodes with others before them. -/
def quotedAmong (source : String) (before nodes : List Node) :
    List (Except Error (String × Quotation)) :=
  ((Placed.among before nodes).filter fun member => member.node.counts source).map
    (quoteMember source)

section Siblings

variable {before otherBefore nodes skipped rest otherRest : List Node} {node : Node}

theorem quoteMember_congr (node : Node) (rest otherRest : List Node)
    (sameLeading : leadingNodes before = leadingNodes otherBefore) :
    quoteMember source ⟨before, node, rest⟩ = quoteMember source ⟨otherBefore, node, otherRest⟩ := by
  unfold quoteMember MethodDeclaration.ofNode
  dsimp only
  rw [sameLeading]

theorem quotedAmong_cons (before : List Node) (node : Node) (rest : List Node) :
    quotedAmong source before (node :: rest) =
      (if node.counts source then [quoteMember source ⟨before, node, rest⟩] else []) ++
        quotedAmong source (node :: before) rest := by
  rw [quotedAmong, Placed.among, List.filter_cons]
  by_cases counted : node.counts source <;> simp [counted, quotedAmong]

/-- What comes after some nodes does not change how they are quoted. -/
theorem quotedAmong_append_congr (nodes : List Node)
    (same : quotedAmong source (nodes.reverse ++ before) rest =
      quotedAmong source (nodes.reverse ++ before) otherRest) :
    quotedAmong source before (nodes ++ rest) = quotedAmong source before (nodes ++ otherRest) := by
  induction nodes generalizing before with
  | nil => exact same
  | cons node nodes inductionHypothesis =>
      have later := @inductionHypothesis (node :: before) (by simpa using same)
      rw [List.cons_append, List.cons_append, quotedAmong_cons, quotedAmong_cons, later,
        quoteMember_congr node (nodes ++ rest) (nodes ++ otherRest) rfl]

theorem quotedAmong_skip (uncounted : ∀ node ∈ skipped, node.counts source = false)
    (before rest : List Node) :
    quotedAmong source before (skipped ++ rest) =
      quotedAmong source (skipped.reverse ++ before) rest := by
  induction skipped generalizing before with
  | nil => rfl
  | cons node nodes inductionHypothesis =>
      have later := inductionHypothesis
        (fun each member => uncounted each (List.mem_cons_of_mem _ member)) (node :: before)
      rw [List.cons_append, quotedAmong_cons, uncounted node List.mem_cons_self, later]
      simp

/-- What stands before some nodes does not matter once it holds no decorators for them. -/
theorem quotedAmong_of_settled (settled : leadingNodes before = [])
    (otherSettled : leadingNodes otherBefore = []) (seen nodes : List Node) :
    quotedAmong source (seen ++ before) nodes = quotedAmong source (seen ++ otherBefore) nodes := by
  induction nodes generalizing seen with
  | nil => rfl
  | cons node nodes inductionHypothesis =>
      have sameLeading : leadingNodes (seen ++ before) = leadingNodes (seen ++ otherBefore) := by
        rw [leadingNodes_append settled, leadingNodes_append otherSettled]
      have later := inductionHypothesis (node :: seen)
      rw [List.cons_append, List.cons_append] at later
      rw [quotedAmong_cons, quotedAmong_cons, later,
        quoteMember_congr node nodes nodes sameLeading]

end Siblings

/-- The children of a class body, and the same without one that does not count. The decorators and
comments right in front of it go with it, for they would else stand in front of the next one. -/
inductive LeavesOut (source : String) : List Node → List Node → Prop
  | member (front own : List Node) (other : Node) (back : List Node)
      (settled : leadingNodes front.reverse = [])
      (leading : ∀ node ∈ own, node.kind = "decorator" ∨ node.kind = "comment")
      (kinds : other.kind ≠ "decorator" ∧ other.kind ≠ "comment")
      (uncounted : other.counts source = false) :
      LeavesOut source (front ++ (own ++ other :: back)) (front ++ back)

theorem counts_of_leading {node : Node}
    (leading : node.kind = "decorator" ∨ node.kind = "comment") : node.counts source = false := by
  rw [Node.counts, decide_eq_false_iff_not]
  rintro ⟨_, declares⟩
  rw [declares.kind] at leading
  exact absurd leading (by decide)

theorem quotedAmong_of_leavesOut {children reduced : List Node}
    (leavesOut : LeavesOut source children reduced) :
    quotedAmong source [] children = quotedAmong source [] reduced := by
  obtain ⟨front, own, other, back, settled, leading, kinds, uncounted⟩ := leavesOut
  refine quotedAmong_append_congr front ?_
  have skipped : ∀ node ∈ own ++ [other], node.counts source = false := by
    intro node member
    rcases List.mem_append.mp member with isOwn | isOther
    · exact counts_of_leading (leading node isOwn)
    · rwa [List.mem_singleton.mp isOther]
  have whole : own ++ other :: back = own ++ [other] ++ back := by simp
  rw [whole, quotedAmong_skip skipped, List.append_nil, List.reverse_append]
  exact quotedAmong_of_settled (leadingNodes_cons_of_other kinds _) settled [] back

/-- Extraction sees of a class body what quoting its members gives. -/
theorem mapM_namedMethods {classNode body : Node} (found : classNode.fieldChild? "body" = some body) :
    (namedMethods source classNode).mapM (quoteMember source) =
      (quotedAmong source [] body.children).mapM id := by
  simp [namedMethods, found, quotedAmong, Placed.children, List.mapM_map]

theorem extractClass_of_leavesOut {classNode body reduced reducedBody : Node}
    (found : classNode.fieldChild? "body" = some body)
    (reducedFound : reduced.fieldChild? "body" = some reducedBody)
    (leavesOut : LeavesOut source body.children reducedBody.children) :
    extractClass source reduced classId = extractClass source classNode classId := by
  rw [extractClass_eq, extractClass_eq, mapM_namedMethods found, mapM_namedMethods reducedFound,
    quotedAmong_of_leavesOut leavesOut]

/-! ## What extraction gives -/

/-- A repository of a class holds each name of some entries once, in the order of their first
occurrence, with the quotation of the last entry under it. -/
structure Repository.Gathers (repository : Repository) (classId : ClassId)
    (entries : List (String × Quotation)) : Prop where
  classId : repository.classId = classId
  distinct : repository.methodNames.Nodup
  names : ∀ name, name ∈ repository.methodNames ↔ name ∈ entries.map Prod.fst
  firstPlaces : repository.methodNames.Pairwise fun first second =>
    (entries.map Prod.fst).idxOf first < (entries.map Prod.fst).idxOf second
  lastValues : ∀ before entry after, entries = before ++ entry :: after →
    entry.1 ∉ after.map Prod.fst → repository.get? entry.1 = some entry.2

theorem Repository.gathers_ofList (classId : ClassId) (entries : List (String × Quotation)) :
    Gathers ⟨classId, .ofList entries⟩ classId entries where
  classId := rfl
  distinct := (InsertionMap.ofList entries).distinct
  names _ := InsertionMap.mem_keys_ofList
  firstPlaces := InsertionMap.keys_ofList_pairwise entries
  lastValues := by
    rintro before entry after rfl last
    exact InsertionMap.get?_ofList_of_last last

/-- Extraction of a class. It fails exactly if some member that counts cannot be quoted, with the
error of the first such member, whatever comes later. Otherwise the repository gathers the names
and quotations of these members. What does not count can be left out of the class. -/
theorem extractClass_exact (source : String) (classNode : Node) (classId : ClassId) :
    ((∃ failure, extractClass source classNode classId = .error failure) ↔
      ∃ member ∈ namedMethods source classNode, ∃ failure,
        quoteMember source member = .error failure) ∧
    (∀ failure, extractClass source classNode classId = .error failure ↔
      ∃ member, FirstFailure (quoteMember source) (namedMethods source classNode) member failure) ∧
    (∀ repository, extractClass source classNode classId = .ok repository →
      ∃ entries,
        List.Forall₂ (fun member entry => quoteMember source member = .ok entry)
          (namedMethods source classNode) entries ∧
        repository.Gathers classId entries) ∧
    (∀ body reduced reducedBody : Node,
      classNode.fieldChild? "body" = some body →
      reduced.fieldChild? "body" = some reducedBody →
      LeavesOut source body.children reducedBody.children →
      extractClass source reduced classId = extractClass source classNode classId) := by
  have failed (failure : Error) : extractClass source classNode classId = .error failure ↔
      (namedMethods source classNode).mapM (quoteMember source) = .error failure := by
    rw [extractClass_eq]
    cases (namedMethods source classNode).mapM (quoteMember source) <;> simp [Except.map]
  refine ⟨?_, ?_, ?_, ?_⟩
  · simp only [failed]
    exact mapM_fails_iff
  · intro failure
    rw [failed]
    exact mapM_eq_error_iff
  · intro repository extracted
    rcases mapM_ok_or_firstFailure (quoteMember source) (namedMethods source classNode) with
      ⟨entries, succeeded, agree⟩ | ⟨_, failure, refused, _⟩
    · rw [extractClass_eq, succeeded] at extracted
      cases extracted
      exact ⟨entries, agree, Repository.gathers_ofList classId entries⟩
    · rw [(failed failure).mpr refused] at extracted
      cases extracted
  · intro body reduced reducedBody found reducedFound leavesOut
    exact extractClass_of_leavesOut found reducedFound leavesOut

/-! ## A class with a name declared twice

Of the text `{f(){}f(a){a}get g(){1}f(b){b}h(c){c}}` two class bodies are read. One has the first
two members, and fails although the second would have taken the place of the first. The other has
the members from the second on. -/

namespace Sample

def membersText : String := "\x7bf()\x7b\x7df(a)\x7ba\x7dget g()\x7b1\x7df(b)\x7bb\x7dh(c)\x7bc\x7d\x7d"

def emptyMethod : Node :=
  node "method_definition" none true 1 6
    [node "property_identifier" (some "name") true 1 2 [],
     node "formal_parameters" (some "parameters") true 2 4 [],
     node "statement_block" (some "body") true 4 6 []]

def getter : Node :=
  node "method_definition" none true 13 23
    [node "get" none false 13 16 [],
     node "property_identifier" (some "name") true 17 18 [],
     node "formal_parameters" (some "parameters") true 18 20 [],
     node "statement_block" (some "body") true 20 23 []]

def classOf (members : List Node) : Node :=
  node "class" none true 0 38 [node "class_body" (some "body") true 0 38 members]

def overriding : Node :=
  classOf [shortMethod 6, getter, shortMethod 23, shortMethod 30]

def classA : ClassId := ⟨"m", "A"⟩

end Sample

theorem extractClass_exact_overridden :
    extractClass Sample.membersText
        (Sample.classOf [Sample.emptyMethod, Sample.shortMethod 6]) Sample.classA =
      .error (.emptyBody "f") ∧
    (∃ repository quotation,
      extractClass Sample.membersText Sample.overriding Sample.classA = .ok repository ∧
      quoteMember Sample.membersText ⟨[], Sample.shortMethod 23, []⟩ = .ok ("f", quotation) ∧
      repository.get? "f" = some quotation) ∧
    extractClass Sample.membersText
        (Sample.classOf [Sample.shortMethod 6, Sample.shortMethod 23, Sample.shortMethod 30])
        Sample.classA =
      extractClass Sample.membersText Sample.overriding Sample.classA := by
  have law := extractClass_exact Sample.membersText Sample.overriding Sample.classA
  refine ⟨?_, ?_, ?_⟩
  · refine ((extractClass_exact _ _ _).2.1 _).mpr
      ⟨⟨[], Sample.emptyMethod, [Sample.shortMethod 6]⟩, ⟨[], _, rfl, nofun⟩, rfl⟩
  · have extracted : ∃ repository,
        extractClass Sample.membersText Sample.overriding Sample.classA = .ok repository := ⟨_, rfl⟩
    obtain ⟨repository, extracted⟩ := extracted
    obtain ⟨entries, agree, gathers⟩ := law.2.2.1 repository extracted
    have members : namedMethods Sample.membersText Sample.overriding =
        [⟨[], Sample.shortMethod 6, [Sample.getter, Sample.shortMethod 23, Sample.shortMethod 30]⟩,
         ⟨[Sample.getter, Sample.shortMethod 6], Sample.shortMethod 23, [Sample.shortMethod 30]⟩,
         ⟨[Sample.shortMethod 23, Sample.getter, Sample.shortMethod 6], Sample.shortMethod 30,
          []⟩] := rfl
    rw [members] at agree
    obtain _ | ⟨first, _ | ⟨second, _ | ⟨third, _ | _⟩⟩⟩ := agree
    cases first
    cases second
    cases third
    exact ⟨repository, _, extracted, rfl, gathers.lastValues [_] _ [_] rfl (by decide)⟩
  · exact law.2.2.2 _ _ _ rfl rfl
      (.member [Sample.shortMethod 6] [] Sample.getter [Sample.shortMethod 23, Sample.shortMethod 30]
        rfl nofun (by decide) (by decide))

end SourceQuote

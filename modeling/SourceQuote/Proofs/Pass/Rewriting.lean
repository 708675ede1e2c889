import Mathlib.Data.List.Forall2
import SourceQuote.Proofs.FirstFailure
import SourceQuote.Proofs.Method.Segmentation
import SourceQuote.Proofs.Pass.Markers

/-!
Contract: the pass over a file is exact to the byte.

Owns: what the output holds at every offset of the source (`rewrittenAt`), which
failure a file is refused with, and the theorem that the pass does exactly this on
every well-formed tree.

Does not own: what the repository of a class holds, see the modules on methods.
-/

namespace SourceQuote

variable {unit : SourceUnit} {options : PassOptions} {site : ClassSite} {offset : Nat}

/-! ## One class -/

namespace ClassSite

/-- The class has a name, and a repository under it. -/
def Quotes (unit : SourceUnit) (site : ClassSite) (name : String) (repository : Repository) :
    Prop :=
  site.name? unit.source = some name ∧
    extractClass unit.source site.classNode (.forPath unit.path name) = .ok repository

/-- The class has no name, or a method that cannot be quoted. -/
def Refuses (unit : SourceUnit) (site : ClassSite) (failure : Error) : Prop :=
  (site.name? unit.source = none ∧ failure = .anonymousClass site.classNode.start) ∨
    ∃ name, site.name? unit.source = some name ∧
      extractClass unit.source site.classNode (.forPath unit.path name) = .error failure

end ClassSite

theorem quoteSite_eq_ok {quoted : QuotedClass} :
    quoteSite unit site = .ok quoted ↔
      quoted.site = site ∧ quoted.site.Quotes unit quoted.name quoted.repository := by
  constructor
  · intro succeeds
    unfold quoteSite at succeeds
    cases named : site.name? unit.source with
    | none => simp [named] at succeeds
    | some name =>
        simp only [named] at succeeds
        cases extracted : extractClass unit.source site.classNode (.forPath unit.path name) with
        | error failure =>
            rw [extracted] at succeeds
            cases succeeds
        | ok repository =>
            rw [extracted] at succeeds
            cases succeeds
            exact ⟨rfl, named, extracted⟩
  · rintro ⟨rfl, named, extracted⟩
    simp only [quoteSite, named]
    rw [extracted]
    rfl

theorem quoteSite_eq_error {failure : Error} (fails : quoteSite unit site = .error failure) :
    site.Refuses unit failure := by
  unfold quoteSite at fails
  cases named : site.name? unit.source with
  | none =>
      simp only [named] at fails
      cases fails
      exact .inl ⟨named, rfl⟩
  | some name =>
      simp only [named] at fails
      cases extracted : extractClass unit.source site.classNode (.forPath unit.path name) with
      | error error =>
          rw [extracted] at fails
          cases fails
          exact .inr ⟨name, named, extracted⟩
      | ok repository =>
          rw [extracted] at fails
          cases fails

namespace QuotedClass

variable {quoted : QuotedClass} {edit : Edit}

def insertion (quoted : QuotedClass) (unit : SourceUnit) (options : PassOptions) : String :=
  Text.lineEnding unit.source ++
    quoted.repository.registration quoted.name options.registerCall unit.dialect.isTyped
      (Text.lineEnding unit.source)

/-- The edits of a class: its markers are dropped, and at the end of the statement
something is put. -/
theorem edits_eq :
    quoted.edits unit options =
      (quoted.site.markers unit.source options.marker).map dropMarker ++
        [⟨quoted.site.statement.stop, quoted.site.statement.stop,
          quoted.insertion unit options⟩] :=
  rfl

theorem mem_edits :
    edit ∈ quoted.edits unit options ↔
      (∃ mark ∈ quoted.site.markers unit.source options.marker, dropMarker mark = edit) ∨
        edit = ⟨quoted.site.statement.stop, quoted.site.statement.stop,
          quoted.insertion unit options⟩ := by
  simp [edits_eq]

/-- The edits of a class stay inside its statement. -/
theorem edit_inside (wellPlaced : quoted.site.WellPlaced unit.source)
    (member : edit ∈ quoted.edits unit options) :
    Text.IsSlice unit.source edit.start edit.stop ∧
      quoted.site.statement.start ≤ edit.start ∧
      edit.stop ≤ quoted.site.statement.stop := by
  rcases mem_edits.mp member with ⟨mark, isMark, rfl⟩ | rfl
  · rw [dropMarker_start, dropMarker_stop]
    exact ClassSite.marker_inside wellPlaced isMark
  · have ends := wellPlaced.wellFormed.stopBoundary
    exact ⟨⟨ends, ends, Nat.le_refl _⟩, wellPlaced.wellFormed.start_le_stop, Nat.le_refl _⟩

theorem edits_disjoint (wellPlaced : quoted.site.WellPlaced unit.source) :
    (quoted.edits unit options).Pairwise Edit.Disjoint := by
  rw [edits_eq, List.pairwise_append]
  refine ⟨ClassSite.markers_disjoint wellPlaced, List.pairwise_singleton _ _, ?_⟩
  intro dropped isDrop put isPut
  obtain ⟨mark, isMark, rfl⟩ := List.mem_map.mp isDrop
  rw [List.mem_singleton.mp isPut]
  left
  rw [dropMarker_stop]
  exact (ClassSite.marker_inside wellPlaced isMark).2.2

theorem edit_simple (member : edit ∈ quoted.edits unit options) :
    edit.start = edit.stop ∨ edit.text = "" := by
  rcases mem_edits.mp member with ⟨mark, _, rfl⟩ | rfl
  · exact .inr rfl
  · exact .inl rfl

end QuotedClass

/-! ## A whole file -/

namespace SourceUnit

variable {quoted : List QuotedClass}

/-- What the output holds for one offset of the source: what is put behind the
statements that stop there, then the byte itself, unless it lies in a marker or in the
gap behind one. -/
def rewrittenAt (unit : SourceUnit) (options : PassOptions) (quoted : List QuotedClass)
    (offset : Nat) : List UInt8 :=
  ((quoted.filter fun each => each.site.statement.stop = offset).flatMap fun each =>
      Text.bytes (each.insertion unit options)) ++
    if quoted.any fun each =>
        (each.site.markers unit.source options.marker).any fun mark => mark.reaches offset
    then [] else (Text.bytes unit.source)[offset]?.toList

/-- A file is refused with the failure of its first marked class that refuses. -/
def RefusedWith (unit : SourceUnit) (options : PassOptions) (failure : Error) : Prop :=
  ∃ before site after,
    unit.markedSites options.marker = before ++ site :: after ∧
    (∀ earlier ∈ before, ∃ name repository, earlier.Quotes unit name repository) ∧
    site.Refuses unit failure

/-- The outcome for a file whose marked classes have all been quoted. -/
structure Rewritten (unit : SourceUnit) (options : PassOptions) (quoted : List QuotedClass)
    (transformed : Transformed) : Prop where
  /-- One quoted class for each marked statement, in source order. -/
  sites : quoted.map QuotedClass.site = unit.markedSites options.marker
  quotes : ∀ each ∈ quoted, each.site.Quotes unit each.name each.repository
  repositories : transformed.repositories = quoted.map QuotedClass.repository
  /-- The sorted edits never overlap, and every slice between them is there. -/
  apart : Edit.Apart unit.source 0
    ((quoted.flatMap fun each => each.edits unit options).mergeSort Edit.le)
  bytes : Text.bytes transformed.source =
    (List.range (unit.source.utf8ByteSize + 1)).flatMap (unit.rewrittenAt options quoted)

theorem insertedAt_edits (quoted : List QuotedClass) (offset : Nat) :
    Edit.insertedAt (quoted.flatMap fun each => each.edits unit options) offset =
      (quoted.filter fun each => each.site.statement.stop = offset).flatMap fun each =>
        Text.bytes (each.insertion unit options) := by
  induction quoted with
  | nil => rfl
  | cons each rest inductionHypothesis =>
      have silent : Edit.insertedAt
          ((each.site.markers unit.source options.marker).map dropMarker) offset = [] := by
        simp [Edit.insertedAt]
      rw [List.flatMap_cons, Edit.insertedAt_append, inductionHypothesis,
        QuotedClass.edits_eq, Edit.insertedAt_append, silent, Edit.insertedAt_cons]
      by_cases stops : each.site.statement.stop = offset <;> simp [stops, Edit.insertedAt]

theorem keptAt_edits (quoted : List QuotedClass) (offset : Nat) :
    Edit.keptAt unit.source (quoted.flatMap fun each => each.edits unit options) offset =
      if quoted.any fun each =>
          (each.site.markers unit.source options.marker).any fun mark => mark.reaches offset
      then [] else (Text.bytes unit.source)[offset]?.toList := by
  have empty : ∀ stop text, Edit.takes ⟨stop, stop, text⟩ offset = false := by
    intro stop text
    simp [Edit.takes]
  have dropped : ∀ mark : Placed, (dropMarker mark).takes offset = mark.reaches offset := by
    intro mark
    rw [Edit.takes, Placed.reaches, dropMarker_stop, dropMarker_start]
  simp [Edit.keptAt, QuotedClass.edits_eq, List.any_flatMap, Function.comp_def, empty, dropped]

theorem edits_proper (options : PassOptions)
    (wellPlaced : ∀ each ∈ quoted, each.site.WellPlaced unit.source) :
    ∀ edit ∈ quoted.flatMap fun each => each.edits unit options,
      Text.IsSlice unit.source edit.start edit.stop := by
  intro edit member
  obtain ⟨each, isQuoted, isEdit⟩ := List.mem_flatMap.mp member
  exact (QuotedClass.edit_inside (wellPlaced each isQuoted) isEdit).1

theorem edits_simple (quoted : List QuotedClass) :
    ∀ edit ∈ quoted.flatMap fun each => each.edits unit options,
      edit.start = edit.stop ∨ edit.text = "" := by
  intro edit member
  obtain ⟨each, _, isEdit⟩ := List.mem_flatMap.mp member
  exact QuotedClass.edit_simple isEdit

theorem edits_disjoint (options : PassOptions)
    (wellPlaced : ∀ each ∈ quoted, each.site.WellPlaced unit.source)
    (ordered : quoted.Pairwise fun earlier later =>
      earlier.site.statement.stop ≤ later.site.statement.start) :
    (quoted.flatMap fun each => each.edits unit options).Pairwise Edit.Disjoint := by
  rw [List.pairwise_flatMap]
  constructor
  · intro each isQuoted
    exact QuotedClass.edits_disjoint (wellPlaced each isQuoted)
  · refine ordered.imp_of_mem ?_
    intro earlier later isEarlier isLater inOrder first isFirst second isSecond
    have firstInside := QuotedClass.edit_inside (wellPlaced earlier isEarlier) isFirst
    have secondInside := QuotedClass.edit_inside (wellPlaced later isLater) isSecond
    left
    omega

/-- Quoting class by class yields one quoted class for each, in the order given. -/
theorem quotes_of_forall₂ {sites : List ClassSite}
    (agree : List.Forall₂ (fun site each => quoteSite unit site = .ok each) sites quoted) :
    quoted.map QuotedClass.site = sites ∧
      ∀ each ∈ quoted, each.site.Quotes unit each.name each.repository := by
  induction agree with
  | nil => exact ⟨rfl, nofun⟩
  | cons succeeds _ inductionHypothesis =>
      obtain ⟨sameSite, quotes⟩ := quoteSite_eq_ok.mp succeeds
      obtain ⟨sameSites, allQuote⟩ := inductionHypothesis
      refine ⟨?_, ?_⟩
      · rw [List.map_cons, sameSite, sameSites]
      · intro each member
        rcases List.mem_cons.mp member with rfl | later
        · exact quotes
        · exact allQuote each later

/-- A pass that gives a result has quoted every marked class, and made the edits of these. -/
theorem exists_quoted {transformed : Transformed}
    (passed : unit.transform options = .ok transformed) :
    ∃ quoted, (unit.markedSites options.marker).mapM (quoteSite unit) = .ok quoted ∧
      quoted.map QuotedClass.site = unit.markedSites options.marker ∧
      (∀ each ∈ quoted, each.site.Quotes unit each.name each.repository) ∧
      transformed =
        ⟨Edit.apply unit.source (quoted.flatMap fun each => each.edits unit options),
          quoted.map QuotedClass.repository⟩ := by
  rcases mapM_ok_or_firstFailure (quoteSite unit) (unit.markedSites options.marker) with
    ⟨quoted, succeeded, agree⟩ | ⟨site, failure, failed, _⟩
  · obtain ⟨sites, quotes⟩ := quotes_of_forall₂ agree
    rw [transform, succeeded] at passed
    cases passed
    exact ⟨quoted, succeeded, sites, quotes, rfl⟩
  · rw [transform, failed] at passed
    cases passed

/-- Whatever has been quoted for the marked classes, the edits made of it rewrite the
file offset by offset. -/
theorem rewritten_of_quoted
    (wellFormed : unit.root.WellFormed unit.source)
    (sites : quoted.map QuotedClass.site = unit.markedSites options.marker)
    (quotes : ∀ each ∈ quoted, each.site.Quotes unit each.name each.repository) :
    unit.Rewritten options quoted
      ⟨Edit.apply unit.source (quoted.flatMap fun each => each.edits unit options),
        quoted.map QuotedClass.repository⟩ := by
  have wellPlaced : ∀ each ∈ quoted, each.site.WellPlaced unit.source := by
    intro each member
    have marked : each.site ∈ unit.markedSites options.marker := by
      rw [← sites]
      exact List.mem_map_of_mem member
    exact classSites_wellPlaced wellFormed (List.mem_of_mem_filter marked)
  have ordered : quoted.Pairwise fun earlier later =>
      earlier.site.statement.stop ≤ later.site.statement.start := by
    have inSource := (classSites_pairwise wellFormed).filter fun site =>
      !(site.markers unit.source options.marker).isEmpty
    rw [← markedSites, ← sites, List.pairwise_map] at inSource
    exact inSource
  have proper := edits_proper options wellPlaced
  have disjoint := edits_disjoint options wellPlaced ordered
  refine ⟨sites, quotes, rfl, Edit.apart_mergeSort proper disjoint, ?_⟩
  rw [Edit.bytes_apply proper disjoint (edits_simple quoted)]
  simp only [insertedAt_edits, keptAt_edits]
  rfl

/-- The pass is exact to the byte. Either the file is refused with the failure of its
first marked class that has no name or cannot be quoted, or every marked class is
quoted, in source order, and the output holds for every offset what `rewrittenAt` says.
A file without marked classes comes out as it went in. -/
theorem transform_exact (unit : SourceUnit) (options : PassOptions)
    (wellFormed : unit.root.WellFormed unit.source) :
    ((∃ failure,
        unit.transform options = .error failure ∧ unit.RefusedWith options failure) ∨
      (∃ transformed quoted,
        unit.transform options = .ok transformed ∧
          unit.Rewritten options quoted transformed)) ∧
    ((unit.markedSites options.marker).Pairwise fun earlier later =>
      earlier.statement.stop ≤ later.statement.start) ∧
    (unit.markedSites options.marker = [] →
      unit.transform options = .ok ⟨unit.source, []⟩) := by
  refine ⟨?_, (classSites_pairwise wellFormed).filter _, ?_⟩
  · rcases mapM_ok_or_firstFailure (quoteSite unit) (unit.markedSites options.marker) with
      ⟨quoted, succeeded, agree⟩ | ⟨site, failure, failed, ⟨before, after, split, earlierOk⟩, fails⟩
    · obtain ⟨sites, quotes⟩ := quotes_of_forall₂ agree
      refine .inr ⟨_, quoted, ?_, rewritten_of_quoted wellFormed sites quotes⟩
      rw [transform, succeeded]
      rfl
    · refine .inl ⟨failure, ?_, before, site, after, split, ?_, quoteSite_eq_error fails⟩
      · rw [transform, failed]
        rfl
      · intro earlier member
        obtain ⟨each, succeeds⟩ := earlierOk earlier member
        obtain ⟨rfl, quotes⟩ := quoteSite_eq_ok.mp succeeds
        exact ⟨each.name, each.repository, quotes⟩
  · intro unmarked
    rw [transform, unmarked]
    change Except.ok (⟨Edit.apply unit.source [], []⟩ : Transformed) = _
    rw [Edit.apply_nil]

end SourceUnit

namespace Sample

def mark (start : Nat) : Node :=
  node "decorator" (some "decorator") true start (start + 7)
    [node "@" none false start (start + 1) [],
     node "identifier" none true (start + 1) (start + 7) []]

/-- A class with a one-letter name and an empty body, its marker at an offset. -/
def markedClass (field : Option String) (start : Nat) : Node :=
  node "class_declaration" field true start (start + 17)
    [mark start,
     node "class" none false (start + 8) (start + 13) [],
     node "type_identifier" (some "name") true (start + 14) (start + 15) [],
     node "class_body" (some "body") true (start + 15) (start + 17) []]

def exportStatement : Node :=
  node "export_statement" none true 0 24
    [node "export" none false 0 6 [], markedClass (some "declaration") 7]

/-- The registration of the first class comes where the second marker starts. -/
def file : SourceUnit where
  path := "a.js"
  dialect := .javaScript
  source := "export @quoted class A\x7b\x7d@quoted class B\x7b\x7d"
  root := node "program" none true 0 41 [exportStatement, markedClass none 24]

def quotedClasses : List QuotedClass :=
  [⟨⟨exportStatement, markedClass (some "declaration") 7, true⟩, "A",
      Repository.empty (.forPath "a.js" "A")⟩,
   ⟨⟨markedClass none 24, markedClass none 24, false⟩, "B",
      Repository.empty (.forPath "a.js" "B")⟩]

def rewrittenFile : String :=
  "export class A\x7b\x7d\nquoted.saveRepo(A, \x7b\x7d);" ++
    "class B\x7b\x7d\nquoted.saveRepo(B, \x7b\x7d);"

end Sample

namespace SourceUnit

theorem transform_exact_sample :
    Sample.file.root.WellFormed Sample.file.source ∧
    ∃ transformed,
      Sample.file.transform {} = .ok transformed ∧
      transformed.repositories = Sample.quotedClasses.map QuotedClass.repository ∧
      transformed.source = Sample.rewrittenFile := by
  have wellFormed : Sample.file.root.WellFormed Sample.file.source := by decide
  have quoting : (Sample.file.markedSites "quoted").mapM (quoteSite Sample.file) =
      .ok Sample.quotedClasses := rfl
  have bytes : (List.range (Sample.file.source.utf8ByteSize + 1)).flatMap
      (Sample.file.rewrittenAt {} Sample.quotedClasses) = Text.bytes Sample.rewrittenFile := by
    decide +kernel
  refine ⟨wellFormed, ?_⟩
  obtain ⟨⟨failure, failed, _⟩ | ⟨transformed, quoted, succeeded, rewritten⟩, _⟩ :=
    transform_exact Sample.file {} wellFormed
  · rw [transform, quoting] at failed
    cases failed
  · have same : quoted = Sample.quotedClasses := by
      obtain ⟨first, rest, rfl, firstSite, restSites⟩ := List.map_eq_cons_iff.mp rewritten.sites
      obtain ⟨second, others, rfl, secondSite, othersSites⟩ := List.map_eq_cons_iff.mp restSites
      have firstQuoted := quoteSite_eq_ok.mpr
        ⟨firstSite, rewritten.quotes first List.mem_cons_self⟩
      have secondQuoted := quoteSite_eq_ok.mpr
        ⟨secondSite, rewritten.quotes second (List.mem_cons_of_mem _ List.mem_cons_self)⟩
      cases firstQuoted
      cases secondQuoted
      rw [List.map_eq_nil_iff.mp othersSites]
      rfl
    subst same
    refine ⟨transformed, succeeded, rewritten.repositories, ?_⟩
    exact Text.bytes_injective (rewritten.bytes.trans bytes)

end SourceUnit

end SourceQuote

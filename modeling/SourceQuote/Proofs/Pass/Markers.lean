import Mathlib.Data.List.Basic
import SourceQuote.Pass.Transformed
import SourceQuote.Proofs.Pass.Edits
import SourceQuote.Proofs.Tree.WellFormed

/-!
Contract: the markers of a class in a well-formed tree, and the bytes that go with
them.

Owns: how far a node reaches among its siblings; that the markers of one class do not
reach into each other, though they hang on two hosts when the class is exported; that
they stay inside the statement; and the order of the marked classes of a file.

Does not own: the edits of a whole file, see `Pass.Rewriting`.
-/

namespace SourceQuote

variable {source marker : String}

/-! ## Reach -/

namespace Placed

/-- Where the next sibling starts, or where the node stops if it is the last. -/
def reach (placed : Placed) : Nat :=
  match placed.after with
  | [] => placed.node.stop
  | next :: _ => next.start

/-- Whether an offset lies in a node or in the gap behind it. -/
def reaches (placed : Placed) (offset : Nat) : Bool :=
  placed.node.start ≤ offset && offset < placed.reach

variable {host child : Node} {placed : Placed} {cursor stop : Nat} {before nodes : List Node}

theorem node_mem_of_mem_among (member : placed ∈ among before nodes) : placed.node ∈ nodes := by
  obtain ⟨front, split, _⟩ := mem_among_iff.mp member
  rw [split]
  exact List.mem_append_right _ List.mem_cons_self

theorem stop_le_reach (ordered : Node.InOrder source cursor stop (placed.node :: placed.after)) :
    placed.node.stop ≤ placed.reach := by
  obtain ⟨before, node, after⟩ := placed
  cases after with
  | nil => exact Nat.le_refl _
  | cons next _ => exact ordered.2.2.1

theorem reach_le_stop (ordered : Node.InOrder source cursor stop (placed.node :: placed.after)) :
    placed.reach ≤ stop := by
  obtain ⟨before, node, after⟩ := placed
  cases after with
  | nil => exact ordered.2.2
  | cons next _ =>
      have inside := ordered.2.2.of_mem List.mem_cons_self
      exact Nat.le_trans inside.1.start_le_stop inside.2.2

theorem reach_le_start (placed : Placed)
    (ordered : Node.InOrder source cursor stop (placed.node :: placed.after))
    (member : child ∈ placed.after) : placed.reach ≤ child.start := by
  obtain ⟨before, node, after⟩ := placed
  cases after with
  | nil => exact absurd member List.not_mem_nil
  | cons next rest =>
      obtain ⟨_, nextWellFormed, following⟩ := ordered.2.2
      rcases List.mem_cons.mp member with rfl | later
      · exact Nat.le_refl _
      · exact Nat.le_trans nextWellFormed.start_le_stop (following.of_mem later).2.1

theorem reachBoundary
    (ordered : Node.InOrder source cursor stop (placed.node :: placed.after)) :
    Text.IsBoundary source placed.reach := by
  obtain ⟨before, node, after⟩ := placed
  cases after with
  | nil => exact ordered.2.1.stopBoundary
  | cons next _ => exact ordered.2.2.2.1.startBoundary

/-- A child and the siblings after it are in order up to the end of the parent. -/
theorem inOrder_from (wellFormed : host.WellFormed source) (member : placed ∈ children host) :
    Node.InOrder source host.start host.stop (placed.node :: placed.after) := by
  have ordered := wellFormed.children
  rw [← siblings_of_mem_children member] at ordered
  exact ordered.sublist (List.sublist_append_right _ _)

theorem among_pairwise_reach (ordered : Node.InOrder source cursor stop nodes) :
    (among before nodes).Pairwise fun earlier later => earlier.reach ≤ later.node.start := by
  induction nodes generalizing before cursor with
  | nil => exact List.Pairwise.nil
  | cons node rest inductionHypothesis =>
      refine List.Pairwise.cons ?_ (inductionHypothesis ordered.2.2)
      intro later member
      exact reach_le_start ⟨before, node, rest⟩ ordered (node_mem_of_mem_among member)

/-- The reach of a child holds nothing of its siblings. -/
theorem reach_apart
    (wellFormed : host.WellFormed source)
    (member : placed ∈ children host)
    (sibling : child ∈ host.children)
    (other : child ≠ placed.node) :
    placed.reach ≤ child.start ∨ child.stop ≤ placed.node.start := by
  have ordered := wellFormed.children
  rw [← siblings_of_mem_children member] at ordered sibling
  rw [siblings, List.mem_append, List.mem_cons] at sibling
  rcases sibling with earlier | same | later
  · right
    exact (List.pairwise_append.mp ordered.pairwise).2.2 child earlier _ List.mem_cons_self
  · exact absurd same other
  · left
    exact reach_le_start placed (inOrder_from wellFormed member) later

end Placed

@[simp] theorem dropMarker_start (mark : Placed) : (dropMarker mark).start = mark.node.start :=
  rfl

@[simp] theorem dropMarker_text (mark : Placed) : (dropMarker mark).text = "" :=
  rfl

@[simp] theorem dropMarker_stop (mark : Placed) : (dropMarker mark).stop = mark.reach := by
  obtain ⟨before, node, after⟩ := mark
  cases after with
  | nil => rfl
  | cons next _ => rfl

/-! ## Class statements -/

namespace ClassSite

variable {site : ClassSite} {mark : Placed}

/-- A class statement of a well-formed tree. An exported class is a child of the
statement and none of its decorators. -/
structure WellPlaced (source : String) (site : ClassSite) : Prop where
  wellFormed : site.statement.WellFormed source
  inside : site.exported = true →
    site.classNode ∈ site.statement.children ∧ site.classNode.info.field ≠ some "decorator"

/-- The class of an export statement stands in one of two fields. -/
theorem exported_of_ofStatement? {statement : Node} (declares : ofStatement? statement = some site) :
    site.statement = statement ∧
      (site.exported = true →
        statement.fieldChild? "declaration" = some site.classNode ∨
          statement.fieldChild? "value" = some site.classNode) := by
  unfold ofStatement? at declares
  split at declares
  · cases declares
    exact ⟨rfl, nofun⟩
  · split at declares
    · cases found : (statement.fieldChild? "declaration").or (statement.fieldChild? "value") with
      | none => simp [found] at declares
      | some declared =>
          simp only [found] at declares
          split at declares
          · cases declares
            refine ⟨rfl, fun _ => ?_⟩
            rcases Option.or_eq_some_iff.mp found with first | ⟨_, second⟩
            · exact .inl first
            · exact .inr second
          · cases declares
    · cases declares

theorem wellPlaced_of_ofStatement? {statement : Node}
    (wellFormed : statement.WellFormed source)
    (declares : ofStatement? statement = some site) : site.WellPlaced source := by
  obtain ⟨rfl, exported⟩ := exported_of_ofStatement? declares
  refine ⟨wellFormed, fun isExported => ?_⟩
  rcases exported isExported with found | found
  · refine ⟨Node.mem_children_of_fieldChild? found, ?_⟩
    rw [Node.field_of_fieldChild? found]
    decide
  · refine ⟨Node.mem_children_of_fieldChild? found, ?_⟩
    rw [Node.field_of_fieldChild? found]
    decide

theorem host_wellFormed (wellPlaced : site.WellPlaced source) {host : Node}
    (member : host ∈ site.hosts) :
    host.WellFormed source ∧ site.statement.start ≤ host.start ∧
      host.stop ≤ site.statement.stop := by
  have itself : site.statement.WellFormed source ∧
      site.statement.start ≤ site.statement.start ∧
      site.statement.stop ≤ site.statement.stop :=
    ⟨wellPlaced.wellFormed, Nat.le_refl _, Nat.le_refl _⟩
  unfold hosts at member
  split at member
  case isTrue exported =>
    rcases List.mem_cons.mp member with rfl | inClass
    · exact itself
    · rw [List.mem_singleton.mp inClass]
      exact wellPlaced.wellFormed.children.of_mem (wellPlaced.inside exported).1
  case isFalse =>
    rw [List.mem_singleton.mp member]
    exact itself

theorem mem_markers :
    mark ∈ site.markers source marker ↔
      ∃ host ∈ site.hosts, mark ∈ Placed.children host ∧ isMarker source marker mark = true := by
  simp [markers]

theorem field_of_isMarker (marks : isMarker source marker mark = true) :
    mark.node.info.field = some "decorator" := by
  unfold isMarker at marks
  exact of_decide_eq_true (Bool.and_eq_true_iff.mp marks).1

/-- A marker of a class, with the gap behind it, lies inside the statement and between
boundaries. -/
theorem marker_inside (wellPlaced : site.WellPlaced source)
    (member : mark ∈ site.markers source marker) :
    Text.IsSlice source mark.node.start mark.reach ∧
      site.statement.start ≤ mark.node.start ∧
      mark.reach ≤ site.statement.stop := by
  obtain ⟨host, isHost, isChild, _⟩ := mem_markers.mp member
  obtain ⟨hostWellFormed, hostStart, hostStop⟩ := host_wellFormed wellPlaced isHost
  have ordered := Placed.inOrder_from hostWellFormed isChild
  have startIn : host.start ≤ mark.node.start := ordered.1
  have reachIn : mark.reach ≤ host.stop := Placed.reach_le_stop ordered
  refine ⟨⟨?_, ?_, ?_⟩, by omega, by omega⟩
  · exact ordered.2.1.startBoundary
  · exact Placed.reachBoundary ordered
  · exact Nat.le_trans ordered.2.1.start_le_stop (Placed.stop_le_reach ordered)

theorem hostMarkers_pairwise {host : Node} (marker : String)
    (wellFormed : host.WellFormed source) :
    ((Placed.children host).filter (isMarker source marker)).Pairwise fun first second =>
      Edit.Disjoint (dropMarker first) (dropMarker second) := by
  refine ((Placed.among_pairwise_reach wellFormed.children).filter _).imp ?_
  intro first second before
  left
  rwa [dropMarker_stop, dropMarker_start]

/-- The markers of a class do not reach into each other. Those of an exported class
hang on the statement and on the class; the ones on the statement are siblings of the
class, so that they stay ahead of it or behind it. -/
theorem markers_disjoint (wellPlaced : site.WellPlaced source) :
    ((site.markers source marker).map dropMarker).Pairwise Edit.Disjoint := by
  rw [List.pairwise_map]
  unfold markers hosts
  have onStatement := hostMarkers_pairwise marker wellPlaced.wellFormed
  split
  case isFalse =>
    rw [List.flatMap_singleton]
    exact onStatement
  case isTrue exported =>
    obtain ⟨isChild, noDecorator⟩ := wellPlaced.inside exported
    have classWellFormed := (wellPlaced.wellFormed.children.of_mem isChild).1
    rw [List.flatMap_cons, List.flatMap_singleton, List.pairwise_append]
    refine ⟨onStatement, hostMarkers_pairwise marker classWellFormed, ?_⟩
    intro outer outerMember inner innerMember
    obtain ⟨outerChild, outerMarks⟩ := List.mem_filter.mp outerMember
    obtain ⟨innerChild, _⟩ := List.mem_filter.mp innerMember
    have differs : site.classNode ≠ outer.node := by
      intro same
      rw [same] at noDecorator
      exact noDecorator (field_of_isMarker outerMarks)
    have innerOrdered := Placed.inOrder_from classWellFormed innerChild
    have innerStart : site.classNode.start ≤ inner.node.start := innerOrdered.1
    have innerReach : inner.reach ≤ site.classNode.stop := Placed.reach_le_stop innerOrdered
    unfold Edit.Disjoint
    rw [dropMarker_start, dropMarker_start, dropMarker_stop, dropMarker_stop]
    rcases Placed.reach_apart wellPlaced.wellFormed outerChild isChild differs with
      ahead | behind
    · left
      omega
    · right
      omega

end ClassSite

/-! ## The marked classes of a file -/

namespace SourceUnit

variable {unit : SourceUnit} {site : ClassSite}

theorem classSites_wellPlaced
    (wellFormed : unit.root.WellFormed unit.source)
    (member : site ∈ unit.classSites) : site.WellPlaced unit.source := by
  obtain ⟨statement, isNamed, declares⟩ := List.mem_filterMap.mp member
  have isChild : statement ∈ unit.root.children := List.mem_of_mem_filter isNamed
  have statementWellFormed := (wellFormed.children.of_mem isChild).1
  exact ClassSite.wellPlaced_of_ofStatement? statementWellFormed declares

/-- Class statements are listed in source order. -/
theorem classSites_pairwise (wellFormed : unit.root.WellFormed unit.source) :
    unit.classSites.Pairwise fun earlier later =>
      earlier.statement.stop ≤ later.statement.start := by
  have ordered : unit.root.namedChildren.Pairwise fun earlier later =>
      earlier.stop ≤ later.start :=
    wellFormed.children.pairwise.filter _
  refine List.pairwise_filterMap.mpr (ordered.imp ?_)
  intro earlier later inOrder first firstDeclared second secondDeclared
  obtain ⟨rfl, _⟩ := ClassSite.exported_of_ofStatement? firstDeclared
  obtain ⟨rfl, _⟩ := ClassSite.exported_of_ofStatement? secondDeclared
  exact inOrder

end SourceUnit

end SourceQuote

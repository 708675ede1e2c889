import Mathlib.Data.List.Basic
import SourceQuote.Proofs.Method.Segmentation

/-!
Contract: how the methods of a class body divide their siblings into declarations.

Owns: the scan back from a method to the first node of its declaration (`Placed.first`), the walk
forward from there (`Placed.walkTo`), and the theorem that the two agree: the walk comes to the
method, windows do not overlap, and a decorator belongs to the method that it leads to.

Two siblings may be equal as values, so they are told apart by how many siblings stand before them.

Does not own: what is cut out of a declaration.
-/

namespace SourceQuote

variable {source : String}

/-- Whether a node may stand between a decorator and the method it belongs to. -/
def Node.IsLeading (node : Node) : Prop :=
  node.kind = "decorator" ∨ node.kind = "comment"

instance (node : Node) : Decidable node.IsLeading :=
  inferInstanceAs (Decidable (_ ∨ _))

namespace Placed

variable {placed sibling earlier later member other : Placed}
  {before nodes front rest : List Node} {node body : Node}

/-! ## Places among siblings -/

def index (placed : Placed) : Nat :=
  placed.before.length

/-- Between a node and a sibling after it stand only decorators and comments. -/
def LeadsTo (earlier later : Placed) : Prop :=
  ∃ between, later.before = between ++ earlier.node :: earlier.before ∧
    ∀ node ∈ between, node.IsLeading

theorem mem_children_iff : placed ∈ children body ↔ placed.siblings = body.children := by
  refine ⟨siblings_of_mem_children, ?_⟩
  intro whole
  exact mem_among_iff.mpr ⟨placed.before.reverse, whole.symm, by simp⟩

/-- Of two children, what stands between the one with fewer siblings before it and the other. -/
theorem exists_between (isChild : earlier ∈ children body) (otherChild : later ∈ children body)
    (ordered : earlier.index < later.index) :
    ∃ between, later.before = between ++ earlier.node :: earlier.before ∧
      earlier.after = between.reverse ++ later.node :: later.after := by
  have same := (mem_children_iff.mp isChild).trans (mem_children_iff.mp otherChild).symm
  have shorter : earlier.before.reverse.length < later.before.reverse.length := by
    simpa [index] using ordered
  rcases List.append_eq_append_iff.mp same with ⟨middle, split, rest⟩ | ⟨middle, split, _⟩
  · cases middle with
    | nil =>
        rw [split] at shorter
        simp at shorter
    | cons node between =>
        rw [List.cons_append, List.cons_eq_cons] at rest
        obtain ⟨rfl, rest⟩ := rest
        refine ⟨between.reverse, ?_, by rw [List.reverse_reverse, rest]⟩
        rw [← List.reverse_reverse later.before, split]
        simp
  · rw [split, List.length_append] at shorter
    omega

theorem eq_of_index_eq (isChild : earlier ∈ children body) (otherChild : later ∈ children body)
    (same : earlier.index = later.index) : earlier = later := by
  have siblingsEq := (mem_children_iff.mp isChild).trans (mem_children_iff.mp otherChild).symm
  have lengths : earlier.before.reverse.length = later.before.reverse.length := by
    simpa [index] using same
  obtain ⟨beforeEq, rest⟩ := List.append_inj siblingsEq lengths
  obtain ⟨earlierBefore, earlierNode, earlierAfter⟩ := earlier
  obtain ⟨laterBefore, laterNode, laterAfter⟩ := later
  cases List.reverse_inj.mp beforeEq
  cases rest
  rfl

/-- A node leads to another if it stands before it and all siblings in between are leading. -/
theorem leadsTo_iff (isChild : earlier ∈ children body) (otherChild : later ∈ children body) :
    earlier.LeadsTo later ↔ earlier.index < later.index ∧
      ∀ sibling ∈ children body, earlier.index < sibling.index → sibling.index < later.index →
        sibling.node.IsLeading := by
  constructor
  · rintro ⟨between, split, leading⟩
    refine ⟨by rw [index, index, split]; simp; omega, ?_⟩
    intro sibling siblingChild behind ahead
    obtain ⟨nearer, laterSplit, _⟩ := exists_between siblingChild otherChild ahead
    obtain ⟨farther, siblingSplit, _⟩ := exists_between isChild siblingChild behind
    rw [split, siblingSplit, ← List.cons_append, ← List.append_assoc] at laterSplit
    have betweenEq := List.append_cancel_right laterSplit
    exact leading _ (betweenEq ▸ List.mem_append_right _ List.mem_cons_self)
  · rintro ⟨ordered, leading⟩
    obtain ⟨between, split, afterSplit⟩ := exists_between isChild otherChild ordered
    refine ⟨between, split, ?_⟩
    intro node member
    obtain ⟨nearer, farther, rfl⟩ := List.append_of_mem member
    have siblingChild :
        (⟨farther ++ earlier.node :: earlier.before, node,
          nearer.reverse ++ later.node :: later.after⟩ : Placed) ∈ children body := by
      rw [mem_children_iff, ← mem_children_iff.mp isChild, siblings, siblings, afterSplit]
      simp
    refine leading _ siblingChild ?_ ?_
    · simp only [index, List.length_append, List.length_cons]
      omega
    · simp only [index, split, List.length_append, List.length_cons]
      omega

/-! ## Back to the first node -/

/-- Goes back over decorators and comments and keeps the earliest decorator. `before` are the
siblings still ahead on the way back, `after` those passed. -/
def earliestDecorator (found : Placed) : (before after : List Node) → Placed
  | [], _ => found
  | sibling :: rest, after =>
      if sibling.kind = "decorator" then
        earliestDecorator ⟨rest, sibling, after⟩ rest (sibling :: after)
      else if sibling.kind = "comment" then
        earliestDecorator found rest (sibling :: after)
      else
        found

def first (member : Placed) : Placed :=
  earliestDecorator member member.before (member.node :: member.after)

/-- The siblings before a method begin its declaration with a decorator: no other leads to that one,
and `between` are the leading siblings from it to the method, the nearest to the method first. -/
structure Opening (before between : List Node) (opening : Node) (rest : List Node) : Prop where
  split : before = between ++ opening :: rest
  isDecorator : opening.kind = "decorator"
  isLeading : ∀ node ∈ between, node.IsLeading
  settled : leadingNodes rest = []
  nodes : leadingNodes before = opening :: between.reverse

theorem leadingNodes_cons_of_isLeading (isLeading : node.IsLeading)
    (begun : leadingNodes before ≠ []) :
    leadingNodes (node :: before) = leadingNodes before ++ [node] := by
  rcases isLeading with isDecorator | isComment
  · exact leadingNodes_cons_of_decorator isDecorator before
  · rw [leadingNodes_cons_of_comment isComment, if_neg begun]

theorem Opening.cons {between : List Node} {opening : Node}
    (opens : Opening before between opening rest) (isLeading : node.IsLeading) :
    Opening (node :: before) (node :: between) opening rest where
  split := by rw [opens.split, List.cons_append]
  isDecorator := opens.isDecorator
  isLeading := List.forall_mem_cons.mpr ⟨isLeading, opens.isLeading⟩
  settled := opens.settled
  nodes := by
    have begun : leadingNodes before ≠ [] := by simp [opens.nodes]
    rw [leadingNodes_cons_of_isLeading isLeading begun, opens.nodes, List.reverse_cons,
      List.cons_append]

/-- The scan stays with what it has found, or goes back to the decorator that opens. -/
theorem earliestDecorator_cases (found : Placed) (before after : List Node) :
    (leadingNodes before = [] ∧ earliestDecorator found before after = found) ∨
    ∃ between opening rest, Opening before between opening rest ∧
      earliestDecorator found before after = ⟨rest, opening, between.reverse ++ after⟩ := by
  induction before generalizing found after with
  | nil => exact .inl ⟨rfl, rfl⟩
  | cons sibling rest inductionHypothesis =>
      rw [earliestDecorator]
      by_cases isDecorator : sibling.kind = "decorator"
      · rw [if_pos isDecorator]
        right
        rcases inductionHypothesis ⟨rest, sibling, after⟩ (sibling :: after) with
          ⟨settled, scanned⟩ | ⟨between, opening, outer, opens, scanned⟩
        · refine ⟨[], sibling, rest, ⟨rfl, isDecorator, nofun, settled, ?_⟩, scanned⟩
          rw [leadingNodes_cons_of_decorator isDecorator, settled]
          rfl
        · exact ⟨sibling :: between, opening, outer, opens.cons (.inl isDecorator),
            by rw [scanned]; simp⟩
      · rw [if_neg isDecorator]
        by_cases isComment : sibling.kind = "comment"
        · rw [if_pos isComment]
          rcases inductionHypothesis found (sibling :: after) with
            ⟨settled, scanned⟩ | ⟨between, opening, outer, opens, scanned⟩
          · left
            exact ⟨by rw [leadingNodes_cons_of_comment isComment, if_pos settled], scanned⟩
          · right
            exact ⟨sibling :: between, opening, outer, opens.cons (.inr isComment),
              by rw [scanned]; simp⟩
        · rw [if_neg isComment]
          exact .inl ⟨leadingNodes_cons_of_other ⟨isDecorator, isComment⟩ rest, rfl⟩

theorem first_cases (member : Placed) :
    (leadingNodes member.before = [] ∧ member.first = member) ∨
    ∃ between, Opening member.before between member.first.node member.first.before ∧
      member.first.after = between.reverse ++ member.node :: member.after := by
  rcases earliestDecorator_cases member member.before (member.node :: member.after) with
    settled | ⟨between, opening, rest, opens, scanned⟩
  · exact .inl settled
  · right
    rw [first, scanned]
    exact ⟨between, opens, rfl⟩

theorem first_mem (isChild : member ∈ children body) : member.first ∈ children body := by
  rcases first_cases member with ⟨_, same⟩ | ⟨between, opens, after⟩
  · rwa [same]
  · rw [mem_children_iff, ← mem_children_iff.mp isChild, siblings, siblings, opens.split, after]
    simp

theorem first_opens (member : Placed) :
    member.first = member ∨
      member.first.node.kind = "decorator" ∧ member.first.LeadsTo member := by
  rcases first_cases member with ⟨_, same⟩ | ⟨between, opens, _⟩
  · exact .inl same
  · exact .inr ⟨opens.isDecorator, between, opens.split, opens.isLeading⟩

theorem first_index_le (isChild : member ∈ children body) : member.first.index ≤ member.index := by
  rcases first_opens member with same | ⟨_, leads⟩
  · rw [same]
  · exact Nat.le_of_lt ((leadsTo_iff (first_mem isChild) isChild).mp leads).1

/-- From the first node of a declaration up to the method all siblings are leading. -/
theorem isLeading_of_between (isChild : member ∈ children body)
    (siblingChild : sibling ∈ children body)
    (behind : member.first.index ≤ sibling.index) (ahead : sibling.index < member.index) :
    sibling.node.IsLeading := by
  rcases first_opens member with same | ⟨isDecorator, leads⟩
  · rw [same] at behind
    omega
  · rcases Nat.eq_or_lt_of_le behind with same | inside
    · rw [← eq_of_index_eq (first_mem isChild) siblingChild same]
      exact .inl isDecorator
    · exact ((leadsTo_iff (first_mem isChild) isChild).mp leads).2 sibling siblingChild inside ahead

/-- A decorator begins a declaration, or belongs to one that has begun. -/
theorem leadingNodes_ne_nil (isDecorator : node.kind = "decorator")
    (isLeading : ∀ each ∈ front, each.IsLeading) : leadingNodes (front ++ node :: rest) ≠ [] := by
  induction front with
  | nil =>
      rw [List.nil_append, leadingNodes_cons_of_decorator isDecorator]
      simp
  | cons each others inductionHypothesis =>
      obtain ⟨eachLeading, othersLeading⟩ := List.forall_mem_cons.mp isLeading
      rw [List.cons_append,
        leadingNodes_cons_of_isLeading eachLeading (inductionHypothesis othersLeading)]
      simp

/-- No decorator that leads to a method stands before the first node of its declaration. -/
theorem first_index_le_of_leadsTo (isChild : member ∈ children body)
    (siblingChild : sibling ∈ children body) (isDecorator : sibling.node.kind = "decorator")
    (leads : sibling.LeadsTo member) : member.first.index ≤ sibling.index := by
  have unsettled {placed : Placed} (leads : sibling.LeadsTo placed) :
      leadingNodes placed.before ≠ [] := by
    obtain ⟨between, split, isLeading⟩ := leads
    rw [split]
    exact leadingNodes_ne_nil isDecorator isLeading
  rcases first_cases member with ⟨settled, _⟩ | ⟨between, opens, _⟩
  · exact absurd settled (unsettled leads)
  · by_contra earlier
    rw [Nat.not_le] at earlier
    -- A decorator from further back would lead to the first node as well.
    have leadsToFirst : sibling.LeadsTo member.first := by
      refine (leadsTo_iff siblingChild (first_mem isChild)).mpr ⟨earlier, ?_⟩
      intro each eachChild behind ahead
      exact ((leadsTo_iff siblingChild isChild).mp leads).2 each eachChild behind
        (Nat.lt_of_lt_of_le ahead (first_index_le isChild))
    exact unsettled leadsToFirst opens.settled

/-! ## Forward to the method -/

/-- The siblings that a walk forward meets, up to the one at a place; none if the siblings end
before. `before` are the siblings that the walk does not come to. -/
def walk (goal : Nat) (before : List Node) : List Node → Option (List Placed)
  | [] => none
  | node :: rest =>
      if before.length = goal then
        some [⟨before, node, rest⟩]
      else
        (walk goal (node :: before) rest).map (⟨before, node, rest⟩ :: ·)

/-- The siblings from a node on, one after the other, up to another. -/
def walkTo (first goal : Placed) : Option (List Placed) :=
  walk goal.index first.before (first.node :: first.after)

theorem le_index_of_mem_among (member : placed ∈ among before nodes) :
    before.length ≤ placed.index := by
  obtain ⟨front, _, beforeEq⟩ := mem_among_iff.mp member
  rw [index, beforeEq, List.length_append]
  omega

/-- A walk over some siblings comes to the place of a node among them. -/
theorem exists_walk (before front : List Node) (node : Node) (rest : List Node) :
    ∃ visited,
      walk (before.length + front.length) before (front ++ node :: rest) = some visited ∧
      visited.getLast? = some ⟨front.reverse ++ before, node, rest⟩ ∧
      visited.map Placed.node = front ++ [node] := by
  induction front generalizing before with
  | nil => exact ⟨[⟨before, node, rest⟩], by simp [walk], rfl, rfl⟩
  | cons start others inductionHypothesis =>
      obtain ⟨visited, walked, last, nodes⟩ := inductionHypothesis (start :: before)
      have count : (start :: before).length + others.length =
          before.length + (start :: others).length := by
        simp only [List.length_cons]
        omega
      rw [count] at walked
      refine ⟨⟨before, start, others ++ node :: rest⟩ :: visited, ?_, ?_, by simp [nodes]⟩
      · rw [List.cons_append, walk, if_neg (by simp), walked]
        rfl
      · obtain ⟨ahead, ends⟩ := List.getLast?_eq_some_iff.mp last
        rw [ends, ← List.cons_append, List.getLast?_concat]
        simp

theorem le_of_walk {goal : Nat} {visited : List Placed}
    (walked : walk goal before nodes = some visited) : before.length ≤ goal := by
  induction nodes generalizing before visited with
  | nil => cases walked
  | cons node rest inductionHypothesis =>
      rw [walk] at walked
      split at walked
      · next here => exact Nat.le_of_eq here
      · obtain ⟨later, onward, _⟩ := Option.map_eq_some_iff.mp walked
        have beyond := inductionHypothesis onward
        rw [List.length_cons] at beyond
        omega

/-- A walk that comes to a place meets the siblings up to it, and no others. -/
theorem mem_of_walk {goal : Nat} {visited : List Placed}
    (walked : walk goal before nodes = some visited) :
    placed ∈ visited ↔ placed ∈ among before nodes ∧ placed.index ≤ goal := by
  induction nodes generalizing before visited with
  | nil => cases walked
  | cons node rest inductionHypothesis =>
      have ahead := le_of_walk walked
      have isHere : (⟨before, node, rest⟩ : Placed).index = before.length := rfl
      rw [walk] at walked
      rw [among, List.mem_cons]
      split at walked
      · next here =>
          cases walked
          rw [List.mem_singleton]
          constructor
          · rintro rfl
            exact ⟨.inl rfl, by omega⟩
          · rintro ⟨isHead | later, within⟩
            · exact isHead
            · have beyond := le_index_of_mem_among later
              rw [List.length_cons] at beyond
              omega
      · obtain ⟨later, onward, rfl⟩ := Option.map_eq_some_iff.mp walked
        rw [List.mem_cons, inductionHypothesis onward]
        constructor
        · rintro (rfl | ⟨isLater, within⟩)
          · exact ⟨.inl rfl, by omega⟩
          · exact ⟨.inr isLater, within⟩
        · rintro ⟨isHead | isLater, within⟩
          · exact .inl isHead
          · exact .inr ⟨isLater, within⟩

/-- A child and the siblings after it are the children from its place on. -/
theorem mem_among_from_iff (isChild : earlier ∈ children body) :
    placed ∈ among earlier.before (earlier.node :: earlier.after) ↔
      placed ∈ children body ∧ earlier.index ≤ placed.index := by
  constructor
  · intro member
    obtain ⟨front, split, beforeEq⟩ := mem_among_iff.mp member
    refine ⟨?_, le_index_of_mem_among member⟩
    rw [mem_children_iff, ← mem_children_iff.mp isChild, siblings, siblings, split, beforeEq]
    simp
  · rintro ⟨placedChild, behind⟩
    rw [mem_among_iff]
    rcases Nat.eq_or_lt_of_le behind with same | inside
    · rw [eq_of_index_eq isChild placedChild same]
      exact ⟨[], rfl, rfl⟩
    · obtain ⟨between, split, afterSplit⟩ := exists_between isChild placedChild inside
      exact ⟨earlier.node :: between.reverse, by rw [afterSplit]; rfl, by simp [split]⟩

/-- The siblings around a method, cut at the first node of its declaration. -/
theorem siblings_from_first (member : Placed) :
    member.first.node :: member.first.after =
        leadingNodes member.before ++ member.node :: member.after ∧
      member.before = (leadingNodes member.before).reverse ++ member.first.before := by
  rcases first_cases member with ⟨settled, same⟩ | ⟨between, opens, after⟩
  · rw [same, settled]
    exact ⟨rfl, rfl⟩
  · rw [opens.nodes, after]
    exact ⟨rfl, by simp [opens.split]⟩

/-- From the first node of its declaration a walk comes to the method, and meets the siblings from
that node on. -/
theorem exists_walkTo (isChild : member ∈ children body) :
    ∃ visited,
      member.first.walkTo member = some visited ∧
      visited.getLast? = some member ∧
      visited.map Placed.node = leadingNodes member.before ++ [member.node] ∧
      ∀ placed, placed ∈ visited ↔
        placed ∈ children body ∧ member.first.index ≤ placed.index ∧
          placed.index ≤ member.index := by
  obtain ⟨onward, backward⟩ := siblings_from_first member
  have place : member.first.before.length + (leadingNodes member.before).length = member.index := by
    have count := congrArg List.length backward
    rw [List.length_append, List.length_reverse] at count
    rw [index]
    omega
  obtain ⟨visited, walked, last, nodes⟩ := exists_walk member.first.before
    (leadingNodes member.before) member.node member.after
  rw [place, ← onward] at walked
  refine ⟨visited, walked, by rw [last, ← backward], nodes, ?_⟩
  intro placed
  rw [mem_of_walk walked, mem_among_from_iff (first_mem isChild), and_assoc]

/-! ## Windows -/

def window (member : Placed) : ByteRange :=
  ⟨member.first.node.start, member.node.stop⟩

def methodsOf (body : Node) : List Placed :=
  (children body).filter fun member => member.node.kind = "method_definition"

theorem mem_methodsOf :
    member ∈ methodsOf body ↔
      member ∈ children body ∧ member.node.kind = "method_definition" := by
  rw [methodsOf, List.mem_filter, decide_eq_true_eq]

theorem not_isLeading_of_mem_methodsOf (isMethod : member ∈ methodsOf body) :
    ¬ member.node.IsLeading := by
  rw [Node.IsLeading, (mem_methodsOf.mp isMethod).2]
  decide

/-- A sibling is part of the declaration of a method: the walk from the first node on meets it, and
it lies in the window. -/
def Holds (member sibling : Placed) : Prop :=
  (∃ visited, member.first.walkTo member = some visited ∧ sibling ∈ visited) ∧
    member.window.covers sibling.node = true

/-- A sibling is no part of the declaration of a method: the walk from the first node on does not
meet it, and it shares no byte with the window. -/
def Spares (member sibling : Placed) : Prop :=
  (∀ visited, member.first.walkTo member = some visited → sibling ∉ visited) ∧
    member.window.meets sibling.node = false

theorem stop_le_start_of_lt (wellFormed : body.WellFormed source)
    (isChild : earlier ∈ children body) (otherChild : later ∈ children body)
    (ordered : earlier.index < later.index) : earlier.node.stop ≤ later.node.start := by
  have run := wellFormed.children
  rw [← mem_children_iff.mp isChild, siblings] at run
  obtain ⟨between, _, after⟩ := exists_between isChild otherChild ordered
  have isAfter : later.node ∈ earlier.after := by simp [after]
  have pairs := (List.pairwise_append.mp run.pairwise).2.1
  exact (List.pairwise_cons.mp pairs).1 _ isAfter

theorem wellFormed_of_mem_children (wellFormed : body.WellFormed source)
    (isChild : placed ∈ children body) : placed.node.WellFormed source := by
  have isNode : placed.node ∈ body.children := by
    rw [← mem_children_iff.mp isChild, siblings]
    exact List.mem_append_right _ List.mem_cons_self
  exact (wellFormed.children.of_mem isNode).1

theorem bounds_le_of_le (wellFormed : body.WellFormed source)
    (isChild : earlier ∈ children body) (otherChild : later ∈ children body)
    (ordered : earlier.index ≤ later.index) :
    earlier.node.start ≤ later.node.start ∧ earlier.node.stop ≤ later.node.stop := by
  rcases Nat.eq_or_lt_of_le ordered with same | strict
  · rw [eq_of_index_eq isChild otherChild same]
    exact ⟨Nat.le_refl _, Nat.le_refl _⟩
  · have apart := stop_le_start_of_lt wellFormed isChild otherChild strict
    have earlierProper := (wellFormed_of_mem_children wellFormed isChild).start_le_stop
    have laterProper := (wellFormed_of_mem_children wellFormed otherChild).start_le_stop
    omega

/-- A declaration holds the siblings from its first node up to the method. -/
theorem holds_of_index (wellFormed : body.WellFormed source) (isChild : member ∈ children body)
    (siblingChild : sibling ∈ children body)
    (behind : member.first.index ≤ sibling.index) (ahead : sibling.index ≤ member.index) :
    member.Holds sibling := by
  obtain ⟨visited, walked, _, _, met⟩ := exists_walkTo isChild
  refine ⟨⟨visited, walked, (met sibling).mpr ⟨siblingChild, behind, ahead⟩⟩, ?_⟩
  have starts := (bounds_le_of_le wellFormed (first_mem isChild) siblingChild behind).1
  have stops := (bounds_le_of_le wellFormed siblingChild isChild ahead).2
  simp [window, ByteRange.covers, starts, stops]

/-- A declaration spares the siblings ahead of its first node and behind the method. -/
theorem spares_of_index (wellFormed : body.WellFormed source) (isChild : member ∈ children body)
    (siblingChild : sibling ∈ children body)
    (outside : sibling.index < member.first.index ∨ member.index < sibling.index) :
    member.Spares sibling := by
  obtain ⟨visited, walked, _, _, met⟩ := exists_walkTo isChild
  constructor
  · intro own ownWalked isMet
    rw [walked] at ownWalked
    cases ownWalked
    obtain ⟨_, behind, ahead⟩ := (met sibling).mp isMet
    omega
  · have apart : sibling.node.stop ≤ member.first.node.start ∨
        member.node.stop ≤ sibling.node.start := by
      rcases outside with ahead | behind
      · exact .inl (stop_le_start_of_lt wellFormed siblingChild (first_mem isChild) ahead)
      · exact .inr (stop_le_start_of_lt wellFormed isChild siblingChild behind)
    rw [ByteRange.meets, Bool.and_eq_false_iff, decide_eq_false_iff_not, decide_eq_false_iff_not,
      Nat.not_lt, Nat.not_lt]
    exact apart

/-- The declaration of a method begins behind every method ahead of it. -/
theorem index_lt_first_index (isMethod : earlier ∈ methodsOf body)
    (otherMethod : later ∈ methodsOf body) (ordered : earlier.index < later.index) :
    earlier.index < later.first.index := by
  by_contra inside
  rw [Nat.not_lt] at inside
  exact not_isLeading_of_mem_methodsOf isMethod
    (isLeading_of_between (mem_methodsOf.mp otherMethod).1 (mem_methodsOf.mp isMethod).1 inside
      ordered)

/-- What leads to a method is spared by every other method. -/
theorem spares_of_leadsTo (wellFormed : body.WellFormed source)
    (isMethod : member ∈ methodsOf body) (otherMethod : other ∈ methodsOf body)
    (different : other ≠ member) (siblingChild : sibling ∈ children body)
    (isLeading : sibling.node.IsLeading) (leads : sibling.LeadsTo member) :
    other.Spares sibling := by
  have isChild := (mem_methodsOf.mp isMethod).1
  have otherChild := (mem_methodsOf.mp otherMethod).1
  obtain ⟨ahead, leadingBetween⟩ := (leadsTo_iff siblingChild isChild).mp leads
  have notLeading := not_isLeading_of_mem_methodsOf otherMethod
  refine spares_of_index wellFormed otherChild siblingChild ?_
  rcases Nat.lt_trichotomy other.index member.index with earlier | same | later
  · -- No method stands between the sibling and the method it leads to.
    right
    by_contra inside
    rw [Nat.not_lt] at inside
    rcases Nat.eq_or_lt_of_le inside with same | between
    · exact notLeading (eq_of_index_eq siblingChild otherChild same ▸ isLeading)
    · exact notLeading (leadingBetween other otherChild between earlier)
  · exact absurd (eq_of_index_eq otherChild isChild same) different
  · left
    exact Nat.lt_trans ahead (index_lt_first_index isMethod otherMethod later)

/-- A decorator that leads to a method is part of its declaration, and of no other. -/
theorem holds_decorator (wellFormed : body.WellFormed source)
    (isMethod : member ∈ methodsOf body) (siblingChild : sibling ∈ children body)
    (isDecorator : sibling.node.kind = "decorator") (leads : sibling.LeadsTo member) :
    member.Holds sibling ∧ ∀ other ∈ methodsOf body, other ≠ member → other.Spares sibling := by
  have isChild := (mem_methodsOf.mp isMethod).1
  have ahead := ((leadsTo_iff siblingChild isChild).mp leads).1
  have behind := first_index_le_of_leadsTo isChild siblingChild isDecorator leads
  refine ⟨holds_of_index wellFormed isChild siblingChild behind ahead.le, ?_⟩
  intro other otherMethod different
  exact spares_of_leadsTo wellFormed isMethod otherMethod different siblingChild
    (.inl isDecorator) leads

/-- A comment that leads to a method ahead of its declaration is part of no declaration. -/
theorem spares_comment (wellFormed : body.WellFormed source)
    (isMethod : member ∈ methodsOf body) (siblingChild : sibling ∈ children body)
    (isComment : sibling.node.kind = "comment") (leads : sibling.LeadsTo member)
    (ahead : sibling.index < member.first.index) (otherMethod : other ∈ methodsOf body) :
    other.Spares sibling := by
  rcases eq_or_ne other member with rfl | different
  · exact spares_of_index wellFormed (mem_methodsOf.mp isMethod).1 siblingChild (.inl ahead)
  · exact spares_of_leadsTo wellFormed isMethod otherMethod different siblingChild
      (.inr isComment) leads

theorem among_pairwise_index (before nodes : List Node) :
    (among before nodes).Pairwise fun earlier later => earlier.index < later.index := by
  induction nodes generalizing before with
  | nil => exact List.Pairwise.nil
  | cons node rest inductionHypothesis =>
      refine List.Pairwise.cons ?_ (inductionHypothesis (node :: before))
      intro later member
      exact le_index_of_mem_among member

theorem span_eq_window {method : MethodDeclaration}
    (declared : MethodDeclaration.ofNode source member = .ok method) :
    method.span .fullDeclaration = .ok member.window := by
  obtain ⟨_, _, _, _, shape⟩ := MethodDeclaration.ofNode_eq_ok declared
  rw [shape, MethodDeclaration.span, MethodDeclaration.start, window]
  dsimp only
  rcases first_cases member with ⟨settled, same⟩ | ⟨_, opens, _⟩
  · rw [settled, same]
  · rw [opens.nodes]

theorem windows_pairwise (wellFormed : body.WellFormed source) :
    (methodsOf body).Pairwise fun earlier later => earlier.window.stop ≤ later.window.start := by
  have places : (methodsOf body).Pairwise fun earlier later => earlier.index < later.index :=
    (among_pairwise_index [] body.children).filter _
  refine List.Pairwise.imp_of_mem ?_ places
  intro earlier later isMethod otherMethod ordered
  exact stop_le_start_of_lt wellFormed (mem_methodsOf.mp isMethod).1
    (first_mem (mem_methodsOf.mp otherMethod).1)
    (index_lt_first_index isMethod otherMethod ordered)

/-! ## The partition -/

/-- The methods among the children of a node divide their siblings into declarations. -/
structure Partitioned (source : String) (body : Node) : Prop where
  /-- The full declaration of a method spans its window. -/
  spans : ∀ member ∈ methodsOf body, ∀ method,
    MethodDeclaration.ofNode source member = .ok method →
      method.span .fullDeclaration = .ok member.window
  /-- Windows begin before they end, and each ends before the next begins. -/
  proper : ∀ member ∈ methodsOf body, member.window.start ≤ member.window.stop
  ordered : (methodsOf body).Pairwise fun earlier later =>
    earlier.window.stop ≤ later.window.start
  /-- A declaration begins with the earliest decorator that leads to its method, or else with the
  method. -/
  opens : ∀ member ∈ methodsOf body,
    member.first ∈ children body ∧
      (member.first = member ∨
        member.first.node.kind = "decorator" ∧ member.first.LeadsTo member) ∧
      ∀ decorator ∈ children body, decorator.node.kind = "decorator" →
        decorator.LeadsTo member → member.first.index ≤ decorator.index
  /-- Walking forward from there, one comes to the method, over the nodes of the declaration. -/
  reaches : ∀ member ∈ methodsOf body, ∃ visited,
    member.first.walkTo member = some visited ∧ visited.getLast? = some member ∧
      ∀ method, MethodDeclaration.ofNode source member = .ok method →
        visited.map Placed.node = method.nodes
  /-- A decorator that leads to a method belongs to its declaration and to no other. -/
  decorators : ∀ member ∈ methodsOf body, ∀ decorator ∈ children body,
    decorator.node.kind = "decorator" → decorator.LeadsTo member →
      member.Holds decorator ∧ ∀ other ∈ methodsOf body, other ≠ member → other.Spares decorator
  /-- A comment that leads to a method ahead of all its decorators belongs to no declaration. -/
  comments : ∀ member ∈ methodsOf body, ∀ comment ∈ children body,
    comment.node.kind = "comment" → comment.LeadsTo member →
      comment.index < member.first.index → ∀ other ∈ methodsOf body, other.Spares comment

/-- In a well-formed tree the methods of every class body, and of any other node, divide their
siblings into declarations. -/
theorem partitioned_of_wellFormed {root : Node} {host : Placed}
    (wellFormed : root.WellFormed source)
    (inTree : host ∈ all root) :
    Partitioned source host.node := by
  obtain ⟨_, _, around⟩ := wellFormed_of_mem_all wellFormed inTree
  have hostWellFormed : host.node.WellFormed source :=
    (around.of_mem (List.mem_append_right _ List.mem_cons_self)).1
  have child {member : Placed} (isMethod : member ∈ methodsOf host.node) :
      member ∈ children host.node := (mem_methodsOf.mp isMethod).1
  constructor
  case spans =>
    intro member isMethod method declared
    exact span_eq_window declared
  case proper =>
    intro member isMethod
    have starts := (bounds_le_of_le hostWellFormed (first_mem (child isMethod)) (child isMethod)
      (first_index_le (child isMethod))).1
    have stops := (wellFormed_of_mem_children hostWellFormed (child isMethod)).start_le_stop
    exact Nat.le_trans starts stops
  case ordered => exact windows_pairwise hostWellFormed
  case opens =>
    intro member isMethod
    refine ⟨first_mem (child isMethod), first_opens member, ?_⟩
    intro decorator siblingChild isDecorator leads
    exact first_index_le_of_leadsTo (child isMethod) siblingChild isDecorator leads
  case reaches =>
    intro member isMethod
    obtain ⟨visited, walked, last, nodes, _⟩ := exists_walkTo (child isMethod)
    refine ⟨visited, walked, last, ?_⟩
    intro method declared
    obtain ⟨_, _, _, _, shape⟩ := MethodDeclaration.ofNode_eq_ok declared
    rw [nodes, shape, MethodDeclaration.nodes]
  case decorators =>
    intro member isMethod decorator siblingChild isDecorator leads
    exact holds_decorator hostWellFormed isMethod siblingChild isDecorator leads
  case comments =>
    intro member isMethod comment siblingChild isComment leads ahead other otherMethod
    exact spares_comment hostWellFormed isMethod siblingChild isComment leads ahead otherMethod

end Placed

/-! ## A body with decorators and comments

The text `{/*a*/@b/*c*/@d f(){}/*e*/g(){}}` with its tree. The first comment stands ahead of the
decorators of `f`, the second between them, and the third ahead of `g`, which has none. -/

namespace Sample

def leadText : String := "\x7b/*a*/@b/*c*/@d f()\x7b\x7d/*e*/g()\x7b\x7d\x7d"

def comment (start : Nat) : Node :=
  node "comment" none true start (start + 5) []

def plainDecorator (start : Nat) : Node :=
  node "decorator" none true start (start + 2)
    [node "@" none false start (start + 1) [],
     node "identifier" none true (start + 1) (start + 2) []]

def plainMethod (start : Nat) : Node :=
  node "method_definition" none true start (start + 5)
    [node "property_identifier" (some "name") true start (start + 1) [],
     node "formal_parameters" (some "parameters") true (start + 1) (start + 3) [],
     node "statement_block" (some "body") true (start + 3) (start + 5) []]

def openingBrace : Node := node "\x7b" none false 0 1 []

def closingBrace : Node := node "\x7d" none false 31 32 []

def leadBody : Node :=
  node "class_body" none true 0 32
    [openingBrace, comment 1, plainDecorator 6, comment 8, plainDecorator 13, plainMethod 16,
     comment 21, plainMethod 26, closingBrace]

def leadingComment : Placed :=
  ⟨[openingBrace], comment 1,
    [plainDecorator 6, comment 8, plainDecorator 13, plainMethod 16, comment 21, plainMethod 26,
     closingBrace]⟩

def leadingDecorator : Placed :=
  ⟨[comment 1, openingBrace], plainDecorator 6,
    [comment 8, plainDecorator 13, plainMethod 16, comment 21, plainMethod 26, closingBrace]⟩

def decoratedMethod : Placed :=
  ⟨[plainDecorator 13, comment 8, plainDecorator 6, comment 1, openingBrace], plainMethod 16,
    [comment 21, plainMethod 26, closingBrace]⟩

def undecoratedMethod : Placed :=
  ⟨[comment 21, plainMethod 16, plainDecorator 13, comment 8, plainDecorator 6, comment 1,
    openingBrace], plainMethod 26, [closingBrace]⟩

end Sample

namespace Placed

/-- The declaration of `f` begins with the decorator `@b` and ends before the comment `/*e*/`. It
holds that decorator, which the declaration of `g` spares; both spare the comment `/*a*/`. -/
theorem partitioned_of_wellFormed_sample :
    Sample.leadBody.WellFormed Sample.leadText ∧
    (⟨[], Sample.leadBody, []⟩ : Placed) ∈ all Sample.leadBody ∧
    Sample.decoratedMethod.window = ⟨6, 21⟩ ∧
    Sample.decoratedMethod.Holds Sample.leadingDecorator ∧
    Sample.undecoratedMethod.Spares Sample.leadingDecorator ∧
    Sample.decoratedMethod.Spares Sample.leadingComment ∧
    Sample.undecoratedMethod.Spares Sample.leadingComment := by
  have wellFormed : Sample.leadBody.WellFormed Sample.leadText := by decide
  have inTree : (⟨[], Sample.leadBody, []⟩ : Placed) ∈ all Sample.leadBody := List.mem_cons_self
  have partitioned := partitioned_of_wellFormed wellFormed inTree
  have decorated : Sample.decoratedMethod ∈ methodsOf Sample.leadBody :=
    List.mem_of_getElem? (i := 0) rfl
  have undecorated : Sample.undecoratedMethod ∈ methodsOf Sample.leadBody :=
    List.mem_of_getElem? (i := 1) rfl
  have isDecorator : Sample.leadingDecorator ∈ children Sample.leadBody := mem_children_iff.mpr rfl
  have isComment : Sample.leadingComment ∈ children Sample.leadBody := mem_children_iff.mpr rfl
  have decoratorLeads : Sample.leadingDecorator.LeadsTo Sample.decoratedMethod :=
    ⟨[Sample.plainDecorator 13, Sample.comment 8], rfl, by decide⟩
  have commentLeads : Sample.leadingComment.LeadsTo Sample.decoratedMethod :=
    ⟨[Sample.plainDecorator 13, Sample.comment 8, Sample.plainDecorator 6], rfl, by decide⟩
  obtain ⟨holds, spares⟩ :=
    partitioned.decorators _ decorated _ isDecorator rfl decoratorLeads
  have apart := partitioned.comments _ decorated _ isComment rfl commentLeads (by decide)
  have different : Sample.undecoratedMethod ≠ Sample.decoratedMethod := by
    intro same
    exact absurd (congrArg index same) (by decide)
  exact ⟨wellFormed, inTree, by decide, holds, spares _ undecorated different,
    apart _ decorated, apart _ undecorated⟩

end Placed

end SourceQuote

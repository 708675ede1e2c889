import SourceQuote.Path.Basic
import SourceQuote.Proofs.Text.Pieces
import Mathlib.Data.List.DropRight

/-!
Contract: the pieces and components of a path that was put together.

Owns: the pieces of a joined path, the components of a path below a base, how the part below a
base and the base make up the components of the whole, and the part below a base of names that were
joined to it.

Does not own: where a path leads; that depends on the directory it starts from.
-/

namespace SourceQuote.Path

open SourceQuote.Text

/-- Whether a text is the name of one step down: no separator stands in it, and it is none of
the pieces that lead elsewhere. -/
structure ProperName (name : String) : Prop where
  solid : name.toList ≠ [] ∧ name.toList ≠ ['.']
  down : name.toList ≠ ['.', '.']
  whole : '/' ∉ name.toList

theorem Component.ofPiece_name {name : String} (proper : ProperName name) :
    Component.ofPiece name.toList = some (.normal name) := by
  rw [Component.ofPiece, if_neg (by simpa using proper.solid), if_neg proper.down,
    String.ofList_toList]

theorem pieces_names {names : List String} (nonempty : names ≠ [])
    (proper : ∀ name ∈ names, ProperName name) :
    pieces '/' ("/".intercalate names).toList = names.map String.toList := by
  rw [String.toList_intercalate, pieces_eq_splitOn]
  refine List.splitOn_intercalate '/' ?_ (by simpa using nonempty)
  intro part member
  obtain ⟨name, isName, rfl⟩ := List.mem_map.mp member
  exact (proper name isName).whole

theorem isAbsolute_names {names : List String} (proper : ∀ name ∈ names, ProperName name) :
    isAbsolute ("/".intercalate names) = false := by
  cases names with
  | nil => rfl
  | cons name rest =>
      have properName := proper name List.mem_cons_self
      cases chars : name.toList with
      | nil => exact absurd chars properName.solid.1
      | cons c others =>
          have notSlash : c ≠ '/' := by
            rintro rfl
            exact properName.whole (by simp [chars])
          have starts : ("/".intercalate (name :: rest)).toList.head? = some c := by
            rw [String.toList_intercalate]
            cases rest with
            | nil => simp [chars]
            | cons next more => simp [chars, List.intercalate_cons_cons]
          rw [isAbsolute, starts]
          simpa using notSlash

/-! ## Joining -/

/-- The pieces of a base that stay when a path is joined to it: a slash at its end leaves an
empty one that goes. -/
theorem pieces_join {base path : String} (relative : isAbsolute path = false)
    (nonempty : base ≠ "") :
    ∃ front, front ≠ [] ∧
      (pieces '/' base.toList = front ∨ pieces '/' base.toList = front ++ [[]]) ∧
      pieces '/' (join base path).toList = front ++ pieces '/' path.toList := by
  have notEmpty : base.isEmpty = false := by simpa using nonempty
  rw [join, relative, notEmpty]
  simp only [Bool.false_eq_true, if_false]
  split
  · next slash =>
      obtain ⟨before, split⟩ := List.getLast?_eq_some_iff.mp slash
      refine ⟨pieces '/' before, pieces_ne_nil _ _, Or.inr ?_, ?_⟩
      · rw [split, pieces_append_separator]
        rfl
      · rw [String.toList_append, split, List.append_assoc, List.singleton_append,
          pieces_append_separator]
  · refine ⟨pieces '/' base.toList, pieces_ne_nil _ _, Or.inl rfl, ?_⟩
    rw [String.toList_append, String.toList_append, List.append_assoc]
    exact pieces_append_separator '/' _ _

theorem isAbsolute_join {base path : String} (relative : isAbsolute path = false)
    (nonempty : base ≠ "") : isAbsolute (join base path) = isAbsolute base := by
  have notEmpty : base.isEmpty = false := by simpa using nonempty
  have head : ∀ rest : String, (base ++ rest).toList.head? = base.toList.head? := by
    intro rest
    cases chars : base.toList with
    | nil => exact absurd (String.toList_eq_nil_iff.mp chars) nonempty
    | cons c others => simp [chars]
  rw [join, relative, notEmpty]
  simp only [Bool.false_eq_true, if_false]
  split
  · rw [isAbsolute, head, isAbsolute]
  · rw [isAbsolute, String.append_assoc, head, isAbsolute]

theorem join_empty (path : String) : join "" path = path := by
  unfold join
  split <;> rfl

theorem components_eq_of_pieces {path : String} {first : List Char} {rest : List (List Char)}
    (cut : pieces '/' path.toList = first :: rest) :
    components path =
      (Component.ofFirstPiece first rest.isEmpty).toList ++ rest.filterMap Component.ofPiece := by
  have tail : (rest.map fun piece => (piece, Component.ofPiece piece)).filterMap Prod.snd =
      rest.filterMap Component.ofPiece := by
    rw [List.filterMap_map]
    rfl
  rw [components, steps, cut, stepsOfPieces, List.filterMap_cons, tail]
  cases Component.ofFirstPiece first rest.isEmpty <;> rfl

theorem components_join {base path : String} (relative : isAbsolute path = false)
    (nonempty : base ≠ "") :
    components (join base path) =
      components base ++ (pieces '/' path.toList).filterMap Component.ofPiece := by
  obtain ⟨front, frontSome, cut, joined⟩ := pieces_join relative nonempty
  obtain ⟨first, rest, rfl⟩ := List.exists_cons_of_ne_nil frontSome
  have notAlone : (rest ++ pieces '/' path.toList).isEmpty = false := by
    simp [pieces_ne_nil]
  rw [List.cons_append] at joined
  have whole := components_eq_of_pieces joined
  rw [notAlone, List.filterMap_append] at whole
  rw [whole, ← List.append_assoc]
  congr 1
  rcases cut with cut | cut
  · -- A first piece that is empty is the slash in front, so it is not alone in the base either.
    rw [components_eq_of_pieces cut]
    congr 2
    cases rest with
    | cons _ _ => rfl
    | nil =>
        have same := joinPieces_pieces '/' base.toList
        rw [cut, joinPieces] at same
        have firstSome : first ≠ [] := by
          rintro rfl
          exact nonempty (String.toList_eq_nil_iff.mp same.symm)
        simp [Component.ofFirstPiece, firstSome]
  · rw [List.cons_append] at cut
    rw [components_eq_of_pieces cut, List.filterMap_append]
    have empties : ([[]] : List (List Char)).filterMap Component.ofPiece = [] := rfl
    rw [empties, List.append_nil]
    cases rest <;> rfl

theorem components_join_names {base : String} {names : List String} (nonempty : base ≠ "")
    (namesNonempty : names ≠ []) (proper : ∀ name ∈ names, ProperName name) :
    components (join base ("/".intercalate names)) =
      components base ++ names.map Component.normal := by
  rw [components_join (isAbsolute_names proper) nonempty, pieces_names namesNonempty proper,
    List.filterMap_map]
  congr 1
  rw [List.filterMap_eq_map_iff_forall_eq_some]
  intro name member
  exact Component.ofPiece_name (proper name member)

theorem components_ne_nil {path : String} (nonempty : path ≠ "") : components path ≠ [] := by
  obtain ⟨first, rest, cut⟩ := List.exists_cons_of_ne_nil (pieces_ne_nil '/' path.toList)
  rw [components_eq_of_pieces cut]
  have same := joinPieces_pieces '/' path.toList
  rw [cut] at same
  by_cases empty : first = []
  · subst empty
    cases rest with
    | nil =>
        rw [joinPieces] at same
        exact absurd (String.toList_eq_nil_iff.mp same.symm) nonempty
    | cons next others => simp [Component.ofFirstPiece]
  · by_cases here : first = ['.']
    · simp [Component.ofFirstPiece, here]
    · by_cases up : first = ['.', '.']
      · simp [Component.ofFirstPiece, Component.ofPiece, up]
      · simp [Component.ofFirstPiece, Component.ofPiece, empty, here, up]

/-! ## The part below a base -/

theorem dropComponents_eq_some {all rest : List Step} {wanted : List Component}
    (dropped : dropComponents all wanted = some rest) :
    ∃ front, all = front ++ rest ∧ front.filterMap Prod.snd = wanted := by
  fun_induction dropComponents all wanted with
  | case1 all =>
      cases dropped
      exact ⟨[], rfl, rfl⟩
  | case2 => cases dropped
  | case3 piece others wanted _ inductionHypothesis =>
      obtain ⟨front, rfl, spelled⟩ := inductionHypothesis dropped
      exact ⟨(piece, none) :: front, rfl, by simpa using spelled⟩
  | case4 piece others component wanted inductionHypothesis =>
      obtain ⟨front, rfl, spelled⟩ := inductionHypothesis dropped
      exact ⟨(piece, some component) :: front, rfl, by simp [spelled]⟩
  | case5 => cases dropped

/-- Whether a step is one of those after the first: its component is that of its piece. -/
def IsLater (step : Step) : Prop :=
  step.2 = Component.ofPiece step.1 ∧ '/' ∉ step.1

theorem isLater_of_mem_tail {path : String} {step : Step} (member : step ∈ (steps path).tail) :
    IsLater step := by
  obtain ⟨first, rest, cut⟩ := List.exists_cons_of_ne_nil (pieces_ne_nil '/' path.toList)
  rw [steps, cut, stepsOfPieces, List.tail_cons] at member
  obtain ⟨piece, isPiece, rfl⟩ := List.mem_map.mp member
  refine ⟨rfl, ?_⟩
  exact not_mem_of_mem_pieces (cut ▸ List.mem_cons_of_mem _ isPiece)

/-- Steps without those at either end that stand for no component. -/
def inner (all : List Step) : List Step :=
  trimSteps (all.dropWhile fun step => step.2.isNone)

theorem filterMap_dropWhile (all : List Step) :
    (all.dropWhile fun step => step.2.isNone).filterMap Prod.snd = all.filterMap Prod.snd := by
  induction all with
  | nil => rfl
  | cons step rest inductionHypothesis =>
      cases component : step.2 with
      | none => simp [component, inductionHypothesis]
      | some _ => simp [component]

theorem filterMap_inner (all : List Step) :
    (inner all).filterMap Prod.snd = all.filterMap Prod.snd := by
  rw [inner, trimSteps, List.filterMap_reverse, filterMap_dropWhile, ← List.filterMap_reverse,
    List.reverse_reverse, filterMap_dropWhile]

theorem mem_of_mem_inner {all : List Step} {step : Step} (member : step ∈ inner all) :
    step ∈ all := by
  rw [inner, trimSteps, List.mem_reverse] at member
  have untrimmed := (List.dropWhile_sublist _).mem member
  rw [List.mem_reverse] at untrimmed
  exact (List.dropWhile_sublist _).mem untrimmed

theorem isSome_head_inner {all rest : List Step} {step : Step}
    (starts : inner all = step :: rest) : step.2.isSome = true := by
  have front : step :: rest <+: all.dropWhile fun step => step.2.isNone :=
    starts ▸ List.rdropWhile_prefix _ _
  obtain ⟨trimmed, whole⟩ := front
  have head := List.head?_dropWhile_not (fun step : Step => step.2.isNone) all
  rw [← whole, List.cons_append, List.head?_cons] at head
  cases component : step.2 with
  | none => simp [component] at head
  | some _ => rfl

theorem isAbsolute_textOf {step : Step} {rest : List Step} (later : IsLater step)
    (moves : step.2.isSome = true) : isAbsolute (textOf (step :: rest)) = false := by
  cases chars : step.1 with
  | nil => simp [later.1, chars, Component.ofPiece] at moves
  | cons c others =>
      have notSlash : c ≠ '/' := by
        rintro rfl
        exact later.2 (by simp [chars])
      have starts : (textOf (step :: rest)).toList.head? = some c := by
        rw [textOf, String.toList_ofList, List.map_cons, chars]
        cases rest.map Prod.fst <;> simp [joinPieces]
      rw [isAbsolute, starts]
      simpa using notSlash

/-- The components of a path are those of the base and those of the part below it. -/
theorem below?_eq_some {path base within : String} (nonempty : base ≠ "")
    (found : below? path base = some within) :
    isAbsolute within = false ∧
      components path =
        components base ++ (pieces '/' within.toList).filterMap Component.ofPiece := by
  obtain ⟨rest, dropped, rfl⟩ := Option.map_eq_some_iff.mp found
  obtain ⟨front, whole, spelled⟩ := dropComponents_eq_some dropped
  have later : ∀ step ∈ inner rest, IsLater step := by
    intro step member
    have frontSome : front ≠ [] := by
      rintro rfl
      exact components_ne_nil nonempty spelled.symm
    apply @isLater_of_mem_tail path
    rw [whole, List.tail_append_of_ne_nil frontSome]
    exact List.mem_append_right _ (mem_of_mem_inner member)
  have parts : components path = components base ++ (inner rest).filterMap Prod.snd := by
    rw [components, whole, List.filterMap_append, spelled, filterMap_inner]
  change isAbsolute (textOf (inner rest)) = false ∧
    components path =
      components base ++ (pieces '/' (textOf (inner rest)).toList).filterMap Component.ofPiece
  rw [parts]
  cases kept : inner rest with
  | nil => exact ⟨rfl, rfl⟩
  | cons step others =>
      rw [kept] at later
      refine ⟨isAbsolute_textOf (later step List.mem_cons_self) (isSome_head_inner kept), ?_⟩
      have cut : pieces '/' (textOf (step :: others)).toList = (step :: others).map Prod.fst := by
        rw [textOf, String.toList_ofList]
        refine pieces_joinPieces (by simp) ?_
        intro part member
        obtain ⟨own, isOwn, rfl⟩ := List.mem_map.mp member
        exact (later own isOwn).2
      rw [cut, List.filterMap_map]
      congr 1
      refine List.filterMap_congr ?_
      intro own member
      exact (later own member).1

/-! ## Paths that spell names -/

/-- Whether a path is written as some names with one slash between two, and slashes only behind
the last one. -/
def Spells (path : String) (names : List String) : Prop :=
  ∃ slashes, path.toList = ("/".intercalate names).toList ++ List.replicate slashes '/'

theorem Spells.pieces_eq {path : String} {names : List String} (spells : Spells path names)
    (nonempty : names ≠ []) (proper : ∀ name ∈ names, ProperName name) :
    ∃ slashes, pieces '/' path.toList =
      names.map String.toList ++ List.replicate slashes [] := by
  obtain ⟨slashes, text⟩ := spells
  refine ⟨slashes, ?_⟩
  rw [text]
  clear text
  induction slashes with
  | zero => simpa using pieces_names nonempty proper
  | succ slashes inductionHypothesis =>
      rw [List.replicate_succ', ← List.append_assoc, pieces_append_separator,
        inductionHypothesis, List.replicate_succ', List.append_assoc]
      rfl

theorem Spells.isAbsolute {path : String} {names : List String} (spells : Spells path names)
    (nonempty : names ≠ []) (proper : ∀ name ∈ names, ProperName name) :
    isAbsolute path = false := by
  obtain ⟨slashes, text⟩ := spells
  have relative := isAbsolute_names proper
  obtain ⟨name, rest, rfl⟩ := List.exists_cons_of_ne_nil nonempty
  have solid := (proper name List.mem_cons_self).solid.1
  rw [Path.isAbsolute, decide_eq_false_iff_not] at relative ⊢
  rw [text, List.head?_append_of_ne_nil]
  · exact relative
  · cases rest <;> simp [solid]

/-- Dropping the components of what a path starts with leaves the rest of its steps, apart from
steps that stand for nothing. -/
theorem dropComponents_append (front rest : List Step) :
    ∃ left, dropComponents (front ++ rest) (front.filterMap Prod.snd) = some left ∧
      left.dropWhile (fun step => step.2.isNone) = rest.dropWhile fun step => step.2.isNone := by
  induction front with
  | nil => exact ⟨rest, by rw [List.nil_append, List.filterMap_nil, dropComponents], rfl⟩
  | cons step front inductionHypothesis =>
      obtain ⟨left, dropped, same⟩ := inductionHypothesis
      obtain ⟨piece, component⟩ := step
      cases component with
      | none =>
          cases wanted : front.filterMap Prod.snd with
          | nil =>
              rw [wanted, dropComponents] at dropped
              cases dropped
              refine ⟨(piece, none) :: front ++ rest, ?_, ?_⟩
              · simp [wanted, dropComponents]
              · simpa using same
          | cons expected others =>
              rw [wanted] at dropped
              refine ⟨left, ?_, same⟩
              simp [wanted, dropComponents, dropped]
      | some component =>
          refine ⟨left, ?_, same⟩
          simp [dropComponents, dropped]

def namedSteps (names : List String) : List Step :=
  names.map fun name => (name.toList, some (Component.normal name))

theorem textOf_namedSteps (names : List String) :
    textOf (namedSteps names) = "/".intercalate names := by
  rw [← String.toList_inj, textOf, String.toList_ofList, namedSteps, List.map_map,
    joinPieces_eq_intercalate, String.toList_intercalate]
  rfl

/-- Trimming leaves names and takes the steps behind them that stand for nothing. -/
theorem inner_namedSteps {names : List String} (nonempty : names ≠ []) (slashes : Nat) :
    inner (namedSteps names ++ List.replicate slashes ([], none)) = namedSteps names := by
  have front : (namedSteps names ++ List.replicate slashes ([], none)).dropWhile
      (fun step => step.2.isNone) = namedSteps names ++ List.replicate slashes ([], none) := by
    obtain ⟨name, rest, rfl⟩ := List.exists_cons_of_ne_nil nonempty
    rfl
  have back : (namedSteps names).reverse.dropWhile (fun step => step.2.isNone) =
      (namedSteps names).reverse := by
    obtain ⟨before, name, rfl⟩ := (List.eq_nil_or_concat names).resolve_left nonempty
    simp [namedSteps]
  rw [inner, front, trimSteps, List.reverse_append, List.reverse_replicate,
    List.dropWhile_append_of_pos (by simp), back, List.reverse_reverse]

/-- A path that spells some names is what lies below a base that it is joined to. -/
theorem below?_join_names {base path : String} {names : List String} (nonempty : base ≠ "")
    (namesNonempty : names ≠ []) (proper : ∀ name ∈ names, ProperName name)
    (spells : Spells path names) :
    below? (join base path) base = some ("/".intercalate names) := by
  have relative := spells.isAbsolute namesNonempty proper
  obtain ⟨front, frontSome, _, joined⟩ := pieces_join relative nonempty
  obtain ⟨slashes, own⟩ := spells.pieces_eq namesNonempty proper
  obtain ⟨first, others, rfl⟩ := List.exists_cons_of_ne_nil frontSome
  have onward : (names.map String.toList ++ List.replicate slashes []).map
      (fun piece => (piece, Component.ofPiece piece)) =
        namedSteps names ++ List.replicate slashes ([], none) := by
    rw [List.map_append, List.map_replicate, List.map_map, namedSteps]
    congr 1
    refine List.map_congr_left fun name member => ?_
    rw [Function.comp_apply, Component.ofPiece_name (proper name member)]
  have notAlone : (others ++ (names.map String.toList ++ List.replicate slashes [])).isEmpty =
      false := by
    simp [namesNonempty]
  have whole : steps (join base path) =
      ((first, Component.ofFirstPiece first false) ::
        others.map fun piece => (piece, Component.ofPiece piece)) ++
      (namedSteps names ++ List.replicate slashes ([], none)) := by
    rw [steps, joined, own, List.cons_append, stepsOfPieces, notAlone, List.map_append, onward,
      List.cons_append]
  have sameBase : components base =
      ((first, Component.ofFirstPiece first false) ::
        others.map fun piece => (piece, Component.ofPiece piece)).filterMap Prod.snd := by
    have parts := components_join relative nonempty
    rw [components, whole, List.filterMap_append] at parts
    refine List.append_cancel_right (parts.symm.trans ?_)
    rw [own, ← onward, List.filterMap_map]
    rfl
  obtain ⟨left, dropped, same⟩ := dropComponents_append
    ((first, Component.ofFirstPiece first false) ::
      others.map fun piece => (piece, Component.ofPiece piece))
    (namedSteps names ++ List.replicate slashes ([], none))
  rw [below?, whole, sameBase, dropped, Option.map_some, same]
  show some (textOf (inner (namedSteps names ++ List.replicate slashes ([], none)))) = _
  rw [inner_namedSteps namesNonempty, textOf_namedSteps]

end SourceQuote.Path

import SourceQuote.Proofs.Path.Pieces

/-!
Contract: the path above another.

Owns: which pieces of a path its parent keeps, and that the path begins with its parent. The
pieces kept are the ones before the last that moves; of the pieces that stay where they are, some
at the end may be gone or added.
-/

namespace SourceQuote.Path

open SourceQuote.Text

theorem trimSteps_append {front still : List Step} {step : Step} (moves : step.2.isNone = false)
    (stays : ∀ other ∈ still, other.2.isNone = true) :
    trimSteps (front ++ step :: still) = front ++ [step] := by
  have stopped : (step :: front.reverse).dropWhile (fun step => step.2.isNone) =
      step :: front.reverse := List.dropWhile_cons_of_neg (by simp [moves])
  rw [trimSteps, List.reverse_append, List.reverse_cons, List.append_assoc,
    List.dropWhile_append_of_pos (by simpa using stays), List.singleton_append, stopped]
  simp

theorem exists_trimSteps (all : List Step) :
    ∃ still, all = trimSteps all ++ still ∧ ∀ step ∈ still, step.2.isNone = true :=
  ⟨all.rtakeWhile fun step => step.2.isNone, List.rdropWhile_append_rtakeWhile.symm,
    fun _ member => List.mem_rtakeWhile_imp (p := fun step : Step => step.2.isNone) member⟩

theorem isAbsolute_iff_pieces {path : String} :
    isAbsolute path = true ↔ ∃ next rest, pieces '/' path.toList = [] :: next :: rest := by
  rw [isAbsolute, decide_eq_true_eq]
  cases path.toList with
  | nil => simp [pieces]
  | cons c rest =>
      obtain ⟨next, others, cut⟩ := List.exists_cons_of_ne_nil (pieces_ne_nil '/' rest)
      rw [pieces, cut]
      by_cases slash : c = '/' <;> simp [slash]

theorem ofFirstPiece_eq_root {piece : List Char} :
    Component.ofFirstPiece piece false = some .root ↔ piece = [] := by
  unfold Component.ofFirstPiece Component.ofPiece
  constructor
  · intro root
    by_contra solid
    rw [if_neg solid] at root
    split at root
    · cases root
    · split at root
      · cases root
      · split at root <;> cases root
  · rintro rfl
    rfl

theorem isSome_ofFirstPiece (piece : List Char) :
    ∃ component, Component.ofFirstPiece piece false = some component := by
  unfold Component.ofFirstPiece Component.ofPiece
  split
  · exact ⟨_, rfl⟩
  · next solid =>
      split
      · exact ⟨_, rfl⟩
      · next dotless =>
          rw [if_neg (by simp [solid, dotless])]
          split <;> exact ⟨_, rfl⟩

theorem ofFirstPiece_of_moves {piece : List Char} (alone : Bool)
    (moves : (Component.ofPiece piece).isNone = false) :
    Component.ofFirstPiece piece alone = Component.ofPiece piece := by
  have solid : ¬ (piece = [] ∨ piece = ['.']) := by
    intro stays
    simp [Component.ofPiece, stays] at moves
  rw [Component.ofFirstPiece, if_neg fun empty => solid (Or.inl empty),
    if_neg fun dot => solid (Or.inr dot)]

theorem parent_cases {path : String} {kept : List Step}
    (trimmed : trimSteps (trimSteps (steps path)).dropLast = kept) :
    (∃ piece, kept = [(piece, some .root)]) ∧ parent path = "/" ∨
      (¬ ∃ piece, kept = [(piece, some .root)]) ∧ parent path = textOf kept := by
  rw [parent, trimmed]
  split
  · exact Or.inl ⟨⟨_, rfl⟩, rfl⟩
  · next other => exact Or.inr ⟨fun ⟨piece, root⟩ => other piece root, rfl⟩

theorem isAbsolute_of_pieces {path : String} {first : List Char} {rest : List (List Char)}
    (cut : pieces '/' path.toList = first :: rest) :
    isAbsolute path = (first.isEmpty && !rest.isEmpty) := by
  rw [Bool.eq_iff_iff, isAbsolute_iff_pieces, cut]
  cases rest with
  | nil => simp
  | cons next others => simp

def laterStep (piece : List Char) : Step :=
  (piece, Component.ofPiece piece)

/-- The path above another that has more than one piece: its first piece stays, and those at the
end that would not move are gone. A slash alone is written as such. -/
theorem parent_of_pieces {path : String} {first piece : List Char}
    {rest still : List (List Char)}
    (cut : pieces '/' path.toList = first :: (rest ++ piece :: still))
    (moves : (Component.ofPiece piece).isNone = false)
    (stays : ∀ other ∈ still, (Component.ofPiece other).isNone = true) :
    ∃ kept gone, rest = kept ++ gone ∧
      (∀ other ∈ gone, (Component.ofPiece other).isNone = true) ∧
      (first :: kept = [[]] ∧ parent path = "/" ∨
        first :: kept ≠ [[]] ∧ parent path = String.ofList (joinPieces '/' (first :: kept))) := by
  obtain ⟨component, starts⟩ := isSome_ofFirstPiece first
  have split : steps path = ((first, some component) :: rest.map laterStep) ++
      laterStep piece :: still.map laterStep := by
    have notAlone : (rest ++ piece :: still).isEmpty = false := by simp
    rw [steps, cut, stepsOfPieces, notAlone, starts, List.map_append]
    rfl
  have dropped : trimSteps (trimSteps (steps path)).dropLast =
      trimSteps ((first, some component) :: rest.map laterStep) := by
    rw [split, trimSteps_append moves (by simpa [laterStep] using stays), List.dropLast_concat]
  obtain ⟨ends, parts, endsStay⟩ := exists_trimSteps
    ((first, some component) :: rest.map laterStep)
  rw [← dropped] at parts
  -- The first piece always moves, so it is among those that are kept.
  cases trimmed : trimSteps (trimSteps (steps path)).dropLast with
  | nil =>
      rw [trimmed, List.nil_append] at parts
      cases endsStay (first, some component) (parts ▸ List.mem_cons_self)
  | cons step keptSteps =>
      rw [trimmed, List.cons_append, List.cons_eq_cons] at parts
      obtain ⟨rfl, parts⟩ := parts
      obtain ⟨kept, gone, rfl, rfl, rfl⟩ := List.map_eq_append_iff.mp parts
      refine ⟨kept, gone, rfl, by simpa [laterStep] using endsStay, ?_⟩
      have root : (∃ piece, (first, some component) :: kept.map laterStep =
          [(piece, some .root)]) ↔ first :: kept = [[]] := by
        rw [List.cons_eq_cons, ← ofFirstPiece_eq_root, starts]
        simp
      have text : (((first, some component) :: kept.map laterStep).map Prod.fst) =
          first :: kept := by
        simp [laterStep, Function.comp_def]
      rcases parent_cases trimmed with ⟨isRoot, above⟩ | ⟨unrooted, above⟩
      · exact Or.inl ⟨root.mp isRoot, above⟩
      · exact Or.inr ⟨fun alone => unrooted (root.mpr alone), by rw [above, textOf, text]⟩

/-- The pieces of the path above another: those before the last that moves, up to pieces at the
end that stay where they are. -/
theorem pieces_parent {path : String} {front still : List (List Char)} {piece : List Char}
    (cut : pieces '/' path.toList = front ++ piece :: still)
    (moves : (Component.ofPiece piece).isNone = false)
    (stays : ∀ other ∈ still, (Component.ofPiece other).isNone = true) :
    isAbsolute (parent path) = isAbsolute path ∧
      ∃ kept gone extra, front = kept ++ gone ∧
        pieces '/' (parent path).toList = kept ++ extra ∧
        (∀ other ∈ gone, (Component.ofPiece other).isNone = true) ∧
        ∀ other ∈ extra, (Component.ofPiece other).isNone = true := by
  cases front with
  | nil =>
      have trimmed : trimSteps (trimSteps (steps path)).dropLast = [] := by
        rw [steps, cut, List.nil_append, stepsOfPieces, ofFirstPiece_of_moves _ moves,
          ← List.nil_append (_ :: _), trimSteps_append moves (by simpa using stays)]
        rfl
      have solid : piece.isEmpty = false := by
        rw [List.isEmpty_eq_false_iff]
        rintro rfl
        cases moves
      rcases parent_cases trimmed with ⟨⟨_, root⟩, _⟩ | ⟨_, above⟩
      · cases root
      · rw [above, isAbsolute_of_pieces cut, solid]
        exact ⟨rfl, [], [], [[]], rfl, rfl, by simp, by simp [Component.ofPiece]⟩
  | cons first rest =>
      have absolute : isAbsolute path = first.isEmpty := by
        rw [isAbsolute_of_pieces cut]
        simp
      obtain ⟨kept, gone, rfl, goneStay, ⟨root, above⟩ | ⟨unrooted, above⟩⟩ :=
        parent_of_pieces cut moves stays
      · obtain ⟨rfl, rfl⟩ := List.cons_eq_cons.mp root
        rw [above, absolute]
        exact ⟨rfl, [[]], gone, [[]], rfl, rfl, goneStay, by simp [Component.ofPiece]⟩
      · have written : pieces '/' (parent path).toList = first :: kept := by
          rw [above, String.toList_ofList]
          refine pieces_joinPieces (List.cons_ne_nil _ _) fun part member => ?_
          refine @not_mem_of_mem_pieces _ path.toList part (cut ▸ ?_)
          exact List.mem_append_left _ (List.mem_append_left gone member)
        refine ⟨?_, first :: kept, gone, [], rfl, by simp [written], goneStay, by simp⟩
        rw [isAbsolute_of_pieces written, absolute]
        cases kept with
        | cons next others => simp
        | nil =>
            have solid : first ≠ [] := fun empty => unrooted (by rw [empty])
            simp [solid]

/-- A path begins with the path above it. -/
theorem parent_prefix (path : String) : (parent path).toList <+: path.toList := by
  have text := joinPieces_pieces '/' path.toList
  have pieces_steps : (steps path).map Prod.fst = pieces '/' path.toList := by
    obtain ⟨first, rest, cut⟩ := List.exists_cons_of_ne_nil (pieces_ne_nil '/' path.toList)
    rw [steps, cut, stepsOfPieces]
    simp [Function.comp_def]
  have kept : trimSteps (trimSteps (steps path)).dropLast <+: steps path :=
    (List.rdropWhile_prefix _ _).trans
      ((List.dropLast_prefix _).trans (List.rdropWhile_prefix _ _))
  rcases @parent_cases path _ rfl with ⟨⟨piece, root⟩, above⟩ | ⟨_, above⟩
  · -- A path whose first step starts at the top begins with a slash.
    rw [root] at kept
    obtain ⟨first, rest, cut⟩ := List.exists_cons_of_ne_nil (pieces_ne_nil '/' path.toList)
    obtain ⟨others, split⟩ := kept
    rw [steps, cut, stepsOfPieces, List.singleton_append, List.cons_eq_cons] at split
    have starts : some Component.root = Component.ofFirstPiece first rest.isEmpty :=
      (Prod.ext_iff.mp split.1).2
    have absolute : isAbsolute path = true := by
      rw [isAbsolute_iff_pieces, cut]
      cases rest with
      | nil =>
          by_cases empty : first = []
          · simp [Component.ofFirstPiece, empty] at starts
          · rw [List.isEmpty_nil, Component.ofFirstPiece, if_neg empty] at starts
            have named : Component.ofFirstPiece first false = some .root := by
              rw [Component.ofFirstPiece, if_neg empty, ← starts]
            exact absurd (ofFirstPiece_eq_root.mp named) empty
      | cons next others => exact ⟨next, others, by rw [ofFirstPiece_eq_root.mp starts.symm]⟩
    rw [isAbsolute, decide_eq_true_eq, List.head?_eq_some_iff] at absolute
    obtain ⟨rest, slash⟩ := absolute
    rw [above, slash]
    exact ⟨rest, rfl⟩
  · rw [above, textOf, String.toList_ofList, ← text, ← pieces_steps]
    exact joinPieces_prefix (kept.map Prod.fst)

end SourceQuote.Path

import SourceQuote.Text.Blank

/-!
Contract: texts cut at a separator.

Owns: where a character goes when a text is cut, and the pieces of a text without the separator, of
two texts with it between them, and of pieces that were joined.

Does not own: what a piece stands for.
-/

namespace SourceQuote.Text

/-- A character that is no separator belongs to the first piece. -/
theorem pieces_cons_of_ne {separator c : Char} (differs : c ≠ separator) (chars : List Char) :
    ∃ first others, pieces separator chars = first :: others ∧
      pieces separator (c :: chars) = (c :: first) :: others := by
  obtain ⟨first, others, cut⟩ := List.exists_cons_of_ne_nil (pieces_ne_nil separator chars)
  refine ⟨first, others, cut, ?_⟩
  rw [pieces, if_neg differs, cut]

theorem pieces_eq_splitOn (separator : Char) (chars : List Char) :
    pieces separator chars = chars.splitOn separator := by
  induction chars with
  | nil => rfl
  | cons c rest inductionHypothesis =>
      by_cases same : c = separator
      · rw [pieces, if_pos same, inductionHypothesis, List.splitOn_cons_eq_if_modifyHead,
          if_pos (by simpa using same)]
      · obtain ⟨first, others, cut, whole⟩ := pieces_cons_of_ne same rest
        rw [whole, List.splitOn_cons_eq_if_modifyHead, if_neg (by simpa using same),
          ← inductionHypothesis, cut]
        rfl

theorem joinPieces_eq_intercalate (separator : Char) (parts : List (List Char)) :
    joinPieces separator parts = [separator].intercalate parts := by
  induction parts with
  | nil => rfl
  | cons part rest inductionHypothesis =>
      cases rest with
      | nil => simp [joinPieces]
      | cons next others =>
          rw [joinPieces, inductionHypothesis, List.intercalate_cons_cons]
          simp

theorem pieces_of_not_mem {separator : Char} {piece : List Char} (whole : separator ∉ piece) :
    pieces separator piece = [piece] := by
  rw [pieces_eq_splitOn, List.splitOn_eq_singleton whole]

theorem pieces_append_separator (separator : Char) (left right : List Char) :
    pieces separator (left ++ separator :: right) =
      pieces separator left ++ pieces separator right := by
  simp only [pieces_eq_splitOn, List.splitOn_append_cons_self]

theorem pieces_joinPieces {separator : Char} {parts : List (List Char)} (nonempty : parts ≠ [])
    (whole : ∀ part ∈ parts, separator ∉ part) :
    pieces separator (joinPieces separator parts) = parts := by
  rw [pieces_eq_splitOn, joinPieces_eq_intercalate, List.splitOn_intercalate separator whole nonempty]

theorem joinPieces_prefix {separator : Char} {parts all : List (List Char)}
    (front : parts <+: all) : joinPieces separator parts <+: joinPieces separator all := by
  induction parts generalizing all with
  | nil => exact List.nil_prefix
  | cons part rest inductionHypothesis =>
      obtain ⟨more, rfl⟩ := front
      cases rest with
      | nil =>
          cases more with
          | nil => exact List.prefix_rfl
          | cons next others => exact ⟨separator :: joinPieces separator (next :: others), rfl⟩
      | cons next others =>
          have later := inductionHypothesis (List.prefix_append (next :: others) more)
          obtain ⟨ending, joined⟩ := later
          refine ⟨ending, ?_⟩
          rw [List.cons_append, List.cons_append, joinPieces, joinPieces, ← List.cons_append,
            ← joined]
          simp

theorem not_mem_of_mem_pieces {separator : Char} {chars piece : List Char}
    (member : piece ∈ pieces separator chars) : separator ∉ piece := by
  induction chars generalizing piece with
  | nil =>
      rw [pieces, List.mem_singleton] at member
      simp [member]
  | cons c rest inductionHypothesis =>
      by_cases same : c = separator
      · rw [pieces, if_pos same] at member
        rcases List.mem_cons.mp member with rfl | later
        · simp
        · exact inductionHypothesis later
      · obtain ⟨first, others, cut, whole⟩ := pieces_cons_of_ne same rest
        rw [cut] at inductionHypothesis
        rw [whole] at member
        rcases List.mem_cons.mp member with rfl | later
        · have headWhole := inductionHypothesis List.mem_cons_self
          simp [Ne.symm same, headWhole]
        · exact inductionHypothesis (List.mem_cons_of_mem _ later)

end SourceQuote.Text

import Mathlib.Data.List.DropRight
import SourceQuote.Proofs.Text.Slices
import SourceQuote.Text.Line

/-!
Contract: rows and columns of byte offsets.

Owns: how the position of an offset follows from the bytes ahead of it: its row counts the line
feeds among them, and its column the bytes since the last of these, both from one.
-/

namespace SourceQuote.Text

theorem foldl_advance (ahead : List UInt8) :
    ahead.foldl Position.advance ⟨1, 1⟩ =
      ⟨ahead.count lineFeed + 1, (ahead.rtakeWhile (· ≠ lineFeed)).length + 1⟩ := by
  induction ahead using List.reverseRecOn with
  | nil => rfl
  | append_singleton ahead byte inductionHypothesis =>
      rw [List.foldl_concat, inductionHypothesis, Position.advance, ← lineFeed]
      by_cases feeds : byte = lineFeed
      · rw [if_pos feeds, List.rtakeWhile_concat_neg _ _ _ (by simp [feeds])]
        simp [feeds]
      · rw [if_neg feeds, List.rtakeWhile_concat_pos _ _ _ (by simp [feeds])]
        simp [feeds]

/-- The position of an offset, by the bytes of the text ahead of it. -/
theorem positionAt_eq (text : String) (offset : Nat) :
    positionAt text offset =
      ⟨((bytes text).take offset).count lineFeed + 1,
        (((bytes text).take offset).rtakeWhile (· ≠ lineFeed)).length + 1⟩ := by
  have ahead : (text.toByteArray.extract 0 offset).toList = (bytes text).take offset := by
    rw [toList_eq_data, ByteArray.data_extract]
    simp [bytes]
  rw [positionAt, ahead, foldl_advance]

end SourceQuote.Text

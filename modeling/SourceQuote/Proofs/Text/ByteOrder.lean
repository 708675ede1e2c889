import Mathlib.Tactic.SplitIfs
import SourceQuote.Proofs.Text.Slices

/-!
Contract: the order of texts by their bytes.

Owns: that comparing two texts by their code points is comparing their UTF-8 forms byte by byte.

## Why the two orders agree

A character with a larger code point never has a smaller first byte, and where the first bytes
agree the remaining bits are written from the highest to the lowest. No character's bytes begin
another's, so the first difference of two encodings decides whatever follows them.
-/

namespace SourceQuote.Text

theorem bytes_ofList (characters : List Char) :
    bytes (String.ofList characters) = characters.flatMap String.utf8EncodeChar := by
  simp [bytes, List.utf8Encode]

theorem encode_append_lt {first second : Char} (before : first < second)
    (rest others : List UInt8) :
    String.utf8EncodeChar first ++ rest < String.utf8EncodeChar second ++ others := by
  have smaller : first.val.toNat < second.val.toNat := before
  have bounded : second.val.toNat ≤ 0x10ffff := by
    have valid := second.valid
    simp only [UInt32.isValidChar, Nat.isValidChar] at valid
    omega
  unfold String.utf8EncodeChar
  generalize first.val.toNat = one at smaller
  generalize second.val.toNat = two at smaller bounded
  dsimp only
  -- Each byte holds the bits above those of the next.
  have onePlaces : one / 64 / 64 = one / 4096 ∧ one / 4096 / 64 = one / 262144 := by omega
  have twoPlaces : two / 64 / 64 = two / 4096 ∧ two / 4096 / 64 = two / 262144 := by omega
  -- Sixteen pairs of lengths; a longer first encoding contradicts `smaller`.
  split_ifs <;>
    simp (disch := omega) only [List.cons_append, List.nil_append, List.cons_lt_cons_iff,
      UInt8.lt_iff_toNat_lt, ← UInt8.toNat_inj, UInt8.toNat_ofNat', Nat.mod_eq_of_lt] <;>
    omega

theorem flatMap_encode_lt {first second : List Char} (before : first < second) :
    first.flatMap String.utf8EncodeChar < second.flatMap String.utf8EncodeChar := by
  induction before with
  | nil =>
      rename_i head rest
      rw [List.flatMap_nil, List.flatMap_cons]
      cases encoded : String.utf8EncodeChar head with
      | nil => exact absurd encoded String.utf8EncodeChar_ne_nil
      | cons byte bytes => exact List.nil_lt_cons byte _
  | rel smaller =>
      rw [List.flatMap_cons, List.flatMap_cons]
      exact encode_append_lt smaller _ _
  | cons _ inductionHypothesis =>
      rw [List.flatMap_cons, List.flatMap_cons]
      exact List.append_left_lt inductionHypothesis

/-- One text comes before another exactly if its bytes do. -/
theorem compare_eq_lt_iff (first second : String) :
    compare first second = .lt ↔ bytes first < bytes second := by
  have forward : ∀ {first second : String}, first < second → bytes first < bytes second := by
    intro first second before
    have encoded := @flatMap_encode_lt first.toList second.toList before
    rwa [← bytes_ofList, ← bytes_ofList, String.ofList_toList, String.ofList_toList] at encoded
  have isLess : ∀ {first second : String}, compare first second = .lt → first < second :=
    fun before => compareOfLessAndEq_eq_lt.mp before
  constructor
  · exact fun before => forward (isLess before)
  · intro before
    cases order : compare first second with
    | lt => rfl
    | eq =>
        obtain rfl := Std.LawfulEqOrd.eq_of_compare order
        exact absurd before (List.lt_irrefl _)
    | gt =>
        have after := forward (isLess (Std.OrientedCmp.lt_of_gt order))
        exact absurd (List.lt_trans before after) (List.lt_irrefl _)

end SourceQuote.Text

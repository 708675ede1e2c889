import Mathlib.Data.List.Basic
import SourceQuote.Text.Span

/-!
Contract: slices between character boundaries.

Owns: the boundaries of a text, the bytes of a text, and `IsSlice`, the pairs of
offsets for which `slice?` and `slice` obey laws: a slice is there, it holds the bytes
between its offsets, and neighbouring slices join.

Does not own: what a slice off the boundaries is. No law here speaks about it.
-/

namespace SourceQuote.Text

/-- Whether a byte offset lies between two characters of a text or at one of its
ends. -/
def IsBoundary (text : String) (offset : Nat) : Prop :=
  String.Pos.Raw.IsValid text ⟨offset⟩

instance (text : String) (offset : Nat) : Decidable (IsBoundary text offset) :=
  inferInstanceAs (Decidable (String.Pos.Raw.IsValid text ⟨offset⟩))

def bytes (text : String) : List UInt8 :=
  text.toByteArray.data.toList

section Bytes

theorem toList_loop_eq (array : ByteArray) (start : Nat) (taken : List UInt8) :
    ByteArray.toList.loop array start taken =
      taken.reverse ++ array.data.toList.drop start := by
  fun_induction ByteArray.toList.loop array start taken with
  | case1 start taken inside inductionHypothesis =>
      have bound : start < array.data.toList.length := by simpa using inside
      rw [inductionHypothesis, List.drop_eq_getElem_cons bound]
      simp [ByteArray.get!, inside]
  | case2 start taken outside =>
      rw [List.drop_eq_nil_of_le (by simpa using Nat.le_of_not_lt outside)]
      simp

theorem toList_eq_data (array : ByteArray) : array.toList = array.data.toList := by
  rw [ByteArray.toList, toList_loop_eq]
  rfl

@[simp] theorem bytes_empty : bytes "" = [] := by
  simp [bytes]

@[simp] theorem bytes_append (first second : String) :
    bytes (first ++ second) = bytes first ++ bytes second := by
  simp [bytes]

@[simp] theorem length_bytes (text : String) : (bytes text).length = text.utf8ByteSize := by
  rw [← String.size_toByteArray]
  rfl

theorem bytes_injective {first second : String} (same : bytes first = bytes second) :
    first = second := by
  apply String.toByteArray_inj.mp
  apply ByteArray.ext
  exact Array.toList_inj.mp same

end Bytes

section Boundaries

variable {text : String} {start middle stop : Nat}

theorem isBoundary_zero (text : String) : IsBoundary text 0 :=
  String.Pos.Raw.isValid_zero

theorem isBoundary_size (text : String) : IsBoundary text text.utf8ByteSize :=
  String.Pos.Raw.isValid_rawEndPos

theorem IsBoundary.le_size (boundary : IsBoundary text stop) : stop ≤ text.utf8ByteSize :=
  String.Pos.Raw.IsValid.le_utf8ByteSize boundary

/-- Two offsets with a slice between them: boundaries of the text, in order. -/
structure IsSlice (text : String) (start stop : Nat) : Prop where
  startBoundary : IsBoundary text start
  stopBoundary : IsBoundary text stop
  ordered : start ≤ stop

theorem isSlice_all (text : String) : IsSlice text 0 text.utf8ByteSize :=
  ⟨isBoundary_zero text, isBoundary_size text, Nat.zero_le _⟩

theorem isValidUTF8_extract (isSlice : IsSlice text start stop) :
    (text.toByteArray.extract start stop).IsValidUTF8 :=
  (String.Pos.Raw.isValidUTF8_extract_iff ⟨start⟩ ⟨stop⟩ isSlice.ordered
    isSlice.stopBoundary.le_size).mpr (.inr ⟨isSlice.startBoundary, isSlice.stopBoundary⟩)

theorem slice?_eq_some_slice (isSlice : IsSlice text start stop) :
    slice? text start stop = some (slice text start stop) := by
  have valid := isValidUTF8_extract isSlice
  simp [slice, slice?, String.fromUTF8?, valid]

/-- A slice holds the bytes between its offsets. -/
theorem toByteArray_slice (isSlice : IsSlice text start stop) :
    (slice text start stop).toByteArray = text.toByteArray.extract start stop := by
  have valid := isValidUTF8_extract isSlice
  simp [slice, slice?, String.fromUTF8?, valid, String.fromUTF8]

theorem bytes_slice (isSlice : IsSlice text start stop) :
    bytes (slice text start stop) = ((bytes text).drop start).take (stop - start) := by
  rw [bytes, toByteArray_slice isSlice, ByteArray.data_extract]
  simp [bytes]

theorem utf8ByteSize_slice (isSlice : IsSlice text start stop) :
    (slice text start stop).utf8ByteSize = stop - start := by
  have inside := isSlice.stopBoundary.le_size
  rw [← length_bytes, bytes_slice isSlice, List.length_take, List.length_drop, length_bytes]
  omega

theorem slice_ne_empty (isSlice : IsSlice text start stop) (proper : start < stop) :
    slice text start stop ≠ "" := by
  intro isEmpty
  have size := utf8ByteSize_slice isSlice
  rw [isEmpty, String.utf8ByteSize_empty] at size
  omega

/-- Slices that meet at a boundary join. -/
theorem slice_append_slice
    (first : IsSlice text start middle)
    (second : IsSlice text middle stop) :
    slice text start middle ++ slice text middle stop = slice text start stop := by
  have whole : IsSlice text start stop :=
    ⟨first.startBoundary, second.stopBoundary, Nat.le_trans first.ordered second.ordered⟩
  apply String.toByteArray_inj.mp
  rw [String.toByteArray_append, toByteArray_slice first, toByteArray_slice second,
    toByteArray_slice whole,
    ← ByteArray.extract_eq_extract_append_extract middle first.ordered second.ordered]

/-- From an offset to one that is not after it there is no text. -/
theorem slice_eq_empty (text : String) (ordered : stop ≤ start) : slice text start stop = "" := by
  have none : text.toByteArray.extract start stop = ByteArray.empty := by
    rw [ByteArray.extract_eq_empty_iff]
    omega
  apply String.toByteArray_inj.mp
  simp [slice, slice?, none, String.fromUTF8?, String.fromUTF8]

/-- The slice of all bytes is the text. -/
theorem slice_all (text : String) : slice text 0 text.utf8ByteSize = text := by
  apply bytes_injective
  rw [bytes_slice (isSlice_all text), List.drop_zero, Nat.sub_zero, ← length_bytes, List.take_length]

end Boundaries

end SourceQuote.Text

import Mathlib.Data.List.Basic
import SourceQuote.Pass.Edit
import SourceQuote.Proofs.Containers.Sorting
import SourceQuote.Proofs.Text.Slices

/-!
Contract: what edits make of a text, byte by byte.

Owns: edits that stand `Apart`, so that making them in order only takes slices that
are there; the bytes of the outcome, offset by offset; and what sorting adds, that
edits which do not reach into each other come out apart, whatever the order they
were given in.

Does not own: where edits come from.

## Offsets instead of slices

`applyFrom` writes slices and texts in turn, and its cursor depends on every edit
before. Read by offsets the outcome needs no cursor: at each offset stand the texts
of the edits that start there, then the byte itself unless an edit takes it. In that
form the order of the edits matters only among those that start at one offset.
-/

namespace SourceQuote.Edit

variable {source : String} {cursor offset : Nat} {edit : Edit} {edits : List Edit}

/-- Edits that can be made in the order given, from a byte on: no edit starts before the
one ahead of it has stopped, and what is copied ahead of each, and behind the last, is a
slice of the text. -/
def Apart (source : String) (cursor : Nat) : List Edit → Prop
  | [] => Text.IsSlice source cursor source.utf8ByteSize
  | edit :: rest =>
      Text.IsSlice source cursor edit.start ∧ edit.start ≤ edit.stop ∧
        Apart source edit.stop rest

def takes (edit : Edit) (offset : Nat) : Bool :=
  edit.start ≤ offset && offset < edit.stop

def insertedAt (edits : List Edit) (offset : Nat) : List UInt8 :=
  (edits.filter fun edit => edit.start = offset).flatMap fun edit => Text.bytes edit.text

/-- The byte at an offset, unless an edit takes it. -/
def keptAt (source : String) (edits : List Edit) (offset : Nat) : List UInt8 :=
  if edits.any fun edit => edit.takes offset then [] else (Text.bytes source)[offset]?.toList

/-! ## Making edits that stand apart -/

theorem Apart.cursorBoundary (apart : Apart source cursor edits) :
    Text.IsBoundary source cursor := by
  cases edits with
  | nil => exact Text.IsSlice.startBoundary apart
  | cons edit rest => exact apart.1.startBoundary

theorem Apart.le_start (apart : Apart source cursor edits) (member : edit ∈ edits) :
    cursor ≤ edit.start := by
  induction edits generalizing cursor with
  | nil => exact absurd member List.not_mem_nil
  | cons head rest inductionHypothesis =>
      obtain ⟨ahead, proper, following⟩ := apart
      rcases List.mem_cons.mp member with rfl | later
      · exact ahead.ordered
      · have before := ahead.ordered
        have behind := inductionHypothesis following later
        omega

theorem insertedAt_cons (edit : Edit) (rest : List Edit) (offset : Nat) :
    insertedAt (edit :: rest) offset =
      (if edit.start = offset then Text.bytes edit.text else []) ++ insertedAt rest offset := by
  by_cases starts : edit.start = offset <;> simp [insertedAt, starts]

theorem insertedAt_append (first second : List Edit) (offset : Nat) :
    insertedAt (first ++ second) offset =
      insertedAt first offset ++ insertedAt second offset := by
  rw [insertedAt, List.filter_append, List.flatMap_append]
  rfl

theorem keptAt_cons (edit : Edit) (rest : List Edit) (offset : Nat) :
    keptAt source (edit :: rest) offset =
      if edit.takes offset then [] else keptAt source rest offset := by
  cases taken : edit.takes offset <;> simp [keptAt, taken]

theorem insertedAt_eq_nil (later : ∀ edit ∈ edits, offset < edit.start) :
    insertedAt edits offset = [] := by
  have none : (edits.filter fun edit => edit.start = offset) = [] := by
    rw [List.filter_eq_nil_iff]
    intro edit member
    have behind := later edit member
    rw [decide_eq_true_eq]
    omega
  rw [insertedAt, none, List.flatMap_nil]

theorem keptAt_eq_byte (later : ∀ edit ∈ edits, offset < edit.start) :
    keptAt source edits offset = (Text.bytes source)[offset]?.toList := by
  have none : ¬ (edits.any fun edit => edit.takes offset) = true := by
    rw [List.any_eq_true]
    rintro ⟨edit, member, taken⟩
    have behind := later edit member
    simp only [takes, Bool.and_eq_true, decide_eq_true_eq] at taken
    omega
  rw [keptAt, if_neg none]

/-! ## Runs of offsets -/

section Offsets

variable {start middle stop : Nat}

/-- Reading a list offset by offset gives a stretch of it. -/
theorem flatMap_getElem?_range' (items : List UInt8) (start count : Nat) :
    ((List.range' start count).flatMap fun offset => items[offset]?.toList) =
      (items.drop start).take count := by
  induction count generalizing start with
  | zero => simp
  | succ count inductionHypothesis =>
      rw [List.range'_succ, List.flatMap_cons, inductionHypothesis]
      by_cases inside : start < items.length
      · rw [List.drop_eq_getElem_cons inside, List.getElem?_eq_getElem inside,
          Option.toList_some, List.singleton_append, List.take_succ_cons]
      · rw [List.drop_eq_nil_of_le (by omega), List.drop_eq_nil_of_le (by omega),
          List.getElem?_eq_none (by omega)]
        simp

theorem range'_split (firstOrdered : start ≤ middle) (secondOrdered : middle ≤ stop) :
    List.range' start (stop - start) =
      List.range' start (middle - start) ++ List.range' middle (stop - middle) := by
  obtain ⟨first, rfl⟩ := Nat.exists_eq_add_of_le firstOrdered
  obtain ⟨second, rfl⟩ := Nat.exists_eq_add_of_le secondOrdered
  rw [Nat.add_sub_cancel_left, Nat.add_sub_cancel_left, List.range'_append_1,
    Nat.add_assoc, Nat.add_sub_cancel_left]

theorem flatMap_range'_congr {first second : Nat → List UInt8}
    (same : ∀ offset, start ≤ offset → offset < stop → first offset = second offset) :
    (List.range' start (stop - start)).flatMap first =
      (List.range' start (stop - start)).flatMap second := by
  apply List.flatMap_congr
  intro offset member
  obtain ⟨lower, upper⟩ := List.mem_range'_1.mp member
  exact same offset lower (by omega)

/-- What stands at one offset besides comes out ahead of everything from that offset
on. -/
theorem flatMap_range'_insert (inserted : List UInt8) (others : Nat → List UInt8)
    (inside : start < stop) :
    ((List.range' start (stop - start)).flatMap fun offset =>
        (if start = offset then inserted else []) ++ others offset) =
      inserted ++ (List.range' start (stop - start)).flatMap others := by
  have later : ((List.range' (start + 1) (stop - start - 1)).flatMap fun offset =>
      (if start = offset then inserted else []) ++ others offset) =
      (List.range' (start + 1) (stop - start - 1)).flatMap others := by
    apply List.flatMap_congr
    intro offset member
    have behind := (List.mem_range'_1.mp member).1
    rw [if_neg (by omega), List.nil_append]
  have count : stop - start = (stop - start - 1) + 1 := by omega
  rw [count, List.range'_succ, List.flatMap_cons, List.flatMap_cons, later]
  simp

end Offsets

/-! ## One edit ahead of others

From the cursor on, the offsets fall into three stretches: those ahead of the edit, the
ones that it takes, and those behind it, where only later edits count. -/

section Stretches

variable {rest : List Edit}

theorem Apart.byte_ahead (apart : Apart source cursor (edit :: rest))
    (ahead : offset < edit.start) :
    insertedAt (edit :: rest) offset ++ keptAt source (edit :: rest) offset =
      (Text.bytes source)[offset]?.toList := by
  obtain ⟨_, proper, following⟩ := apart
  have later : ∀ each ∈ edit :: rest, offset < each.start := by
    intro each member
    rcases List.mem_cons.mp member with rfl | further
    · exact ahead
    · have behind := following.le_start further
      omega
  rw [insertedAt_eq_nil later, keptAt_eq_byte later, List.nil_append]

theorem Apart.nothing_taken (apart : Apart source cursor (edit :: rest))
    (lower : edit.start ≤ offset) (upper : offset < edit.stop) :
    insertedAt rest offset ++ keptAt source (edit :: rest) offset = [] := by
  obtain ⟨_, _, following⟩ := apart
  have later : ∀ each ∈ rest, offset < each.start := by
    intro each member
    have behind := following.le_start member
    omega
  have taken : edit.takes offset = true := by simp [takes, lower, upper]
  rw [insertedAt_eq_nil later, keptAt_cons, if_pos taken, List.nil_append]

theorem keptAt_behind (behind : edit.stop ≤ offset) :
    keptAt source (edit :: rest) offset = keptAt source rest offset := by
  have spared : ¬ edit.takes offset = true := by
    simp only [takes, Bool.and_eq_true, decide_eq_true_eq]
    omega
  rw [keptAt_cons, if_neg spared]

end Stretches

/-- Edits that stand apart, offset by offset. -/
theorem bytes_applyFrom (apart : Apart source cursor edits) :
    Text.bytes (applyFrom source cursor edits) =
      (List.range' cursor (source.utf8ByteSize + 1 - cursor)).flatMap fun offset =>
        insertedAt edits offset ++ keptAt source edits offset := by
  induction edits generalizing cursor with
  | nil =>
      have isSlice : Text.IsSlice source cursor source.utf8ByteSize := apart
      rw [applyFrom, Text.bytes_slice isSlice, ← flatMap_getElem?_range',
        range'_split isSlice.ordered (Nat.le_succ _), List.flatMap_append]
      simp [insertedAt, keptAt, List.range'_succ]
  | cons edit rest inductionHypothesis =>
      have ⟨isSlice, proper, following⟩ := apart
      have inside := following.cursorBoundary.le_size
      have ahead : ((Text.bytes source).drop cursor).take (edit.start - cursor) =
          (List.range' cursor (edit.start - cursor)).flatMap fun offset =>
            insertedAt (edit :: rest) offset ++ keptAt source (edit :: rest) offset := by
        rw [← flatMap_getElem?_range']
        refine flatMap_range'_congr fun offset _ upper => ?_
        rw [apart.byte_ahead upper]
      have taken : ((List.range' edit.start (edit.stop - edit.start)).flatMap
          fun offset => insertedAt rest offset ++ keptAt source (edit :: rest) offset) = [] := by
        rw [List.flatMap_eq_nil_iff]
        intro offset member
        obtain ⟨lower, upper⟩ := List.mem_range'_1.mp member
        exact apart.nothing_taken lower (by omega)
      have behind : Text.bytes (applyFrom source edit.stop rest) =
          (List.range' edit.start (source.utf8ByteSize + 1 - edit.start)).flatMap
            fun offset => insertedAt rest offset ++ keptAt source (edit :: rest) offset := by
        rw [inductionHypothesis following, range'_split proper (by omega : edit.stop ≤ _),
          List.flatMap_append, taken, List.nil_append]
        refine flatMap_range'_congr fun offset lower _ => ?_
        rw [keptAt_behind lower]
      -- The text of the edit stands at its start, ahead of what is left from there on.
      have whole := range'_split isSlice.ordered
        (by omega : edit.start ≤ source.utf8ByteSize + 1)
      rw [applyFrom, Text.bytes_append, Text.bytes_append, Text.bytes_slice isSlice, ahead,
        behind, List.append_assoc, ← flatMap_range'_insert _ _ (by omega : edit.start < _),
        whole, List.flatMap_append]
      simp only [insertedAt_cons, List.append_assoc]

/-! ## Sorting edits that do not reach into each other -/

def Disjoint (first second : Edit) : Prop :=
  first.stop ≤ second.start ∨ second.stop ≤ first.start

theorem le_eq_true {first second : Edit} :
    le first second = true ↔
      first.start < second.start ∨ first.start = second.start ∧ first.stop ≤ second.stop := by
  simp [le]

theorem le_trans (first second third : Edit) (before : le first second = true)
    (after : le second third = true) : le first third = true := by
  rw [le_eq_true] at *
  omega

theorem le_total (first second : Edit) : (le first second || le second first) = true := by
  rw [Bool.or_eq_true, le_eq_true, le_eq_true]
  omega

theorem apart_of_pairwise
    (boundary : Text.IsBoundary source cursor)
    (proper : ∀ edit ∈ edits, Text.IsSlice source edit.start edit.stop)
    (after : ∀ edit ∈ edits, cursor ≤ edit.start)
    (ordered : edits.Pairwise fun earlier later => earlier.stop ≤ later.start) :
    Apart source cursor edits := by
  induction edits generalizing cursor with
  | nil => exact ⟨boundary, Text.isBoundary_size source, boundary.le_size⟩
  | cons edit rest inductionHypothesis =>
      obtain ⟨ahead, orderedRest⟩ := List.pairwise_cons.mp ordered
      have headProper := proper edit List.mem_cons_self
      refine ⟨⟨boundary, headProper.startBoundary, after edit List.mem_cons_self⟩,
        headProper.ordered, inductionHypothesis headProper.stopBoundary ?_ ahead orderedRest⟩
      intro later member
      exact proper later (List.mem_cons_of_mem _ member)

/-- Once sorted, edits that do not reach into each other never overlap. Two edits at
one offset are no exception: the one that sorts first is then empty. -/
theorem apart_mergeSort
    (proper : ∀ edit ∈ edits, Text.IsSlice source edit.start edit.stop)
    (disjoint : edits.Pairwise Disjoint) :
    Apart source 0 (edits.mergeSort le) := by
  have sortedProper : ∀ edit ∈ edits.mergeSort le, Text.IsSlice source edit.start edit.stop := by
    intro edit member
    exact proper edit (List.mem_mergeSort.mp member)
  have sorted : (edits.mergeSort le).Pairwise fun first second => le first second = true :=
    List.pairwise_mergeSort le_trans le_total edits
  have stillDisjoint : (edits.mergeSort le).Pairwise Disjoint :=
    (List.mergeSort_perm edits le).symm.pairwise disjoint Or.symm
  apply apart_of_pairwise (Text.isBoundary_zero source) sortedProper
  · intro edit _
    exact Nat.zero_le _
  · refine (sorted.and stillDisjoint).imp_of_mem ?_
    rintro first second firstMember secondMember ⟨inOrder, apart⟩
    have firstOrdered := (sortedProper first firstMember).ordered
    have secondOrdered := (sortedProper second secondMember).ordered
    rw [le_eq_true] at inOrder
    rcases apart with done | reversed <;> omega

/-- Edits of one empty range keep the order in which they were given. -/
theorem filter_mergeSort (edits : List Edit) (offset : Nat) :
    ((edits.mergeSort le).filter fun edit => edit.start = offset ∧ edit.stop = offset) =
      edits.filter fun edit => edit.start = offset ∧ edit.stop = offset := by
  rw [SourceQuote.filter_mergeSort le_trans le_total]
  apply List.mergeSort_of_pairwise
  apply List.pairwise_of_forall_mem_list
  intro first firstMember second secondMember
  have firstAt := (List.mem_filter.mp firstMember).2
  have secondAt := (List.mem_filter.mp secondMember).2
  rw [decide_eq_true_eq] at firstAt secondAt
  rw [le_eq_true]
  omega

/-- If every edit takes no bytes or puts no text, then what is put at an offset comes
from the edits of the empty range there. -/
theorem insertedAt_eq_filter
    (simple : ∀ edit ∈ edits, edit.start = edit.stop ∨ edit.text = "")
    (offset : Nat) :
    insertedAt edits offset =
      (edits.filter fun edit => edit.start = offset ∧ edit.stop = offset).flatMap
        fun edit => Text.bytes edit.text := by
  induction edits with
  | nil => rfl
  | cons edit rest inductionHypothesis =>
      have restSimple := inductionHypothesis fun each member =>
        simple each (List.mem_cons_of_mem _ member)
      rw [insertedAt_cons, restSimple]
      rcases simple edit List.mem_cons_self with empty | silent
      · by_cases starts : edit.start = offset <;> simp [← empty, starts]
      · by_cases here : edit.start = offset ∧ edit.stop = offset <;> simp [here, silent]

theorem insertedAt_mergeSort
    (simple : ∀ edit ∈ edits, edit.start = edit.stop ∨ edit.text = "")
    (offset : Nat) :
    insertedAt (edits.mergeSort le) offset = insertedAt edits offset := by
  have sortedSimple : ∀ edit ∈ edits.mergeSort le, edit.start = edit.stop ∨ edit.text = "" := by
    intro edit member
    exact simple edit (List.mem_mergeSort.mp member)
  rw [insertedAt_eq_filter sortedSimple, insertedAt_eq_filter simple, filter_mergeSort]

theorem keptAt_mergeSort (source : String) (edits : List Edit) (offset : Nat) :
    keptAt source (edits.mergeSort le) offset = keptAt source edits offset := by
  have same := (List.mergeSort_perm edits le).any_eq (f := fun edit => edit.takes offset)
  rw [keptAt, keptAt, same]

theorem apply_nil (source : String) : apply source [] = source := by
  rw [apply, List.mergeSort_nil, applyFrom, Text.slice_all]

/-- Edits that do not reach into each other, each of which takes no bytes or puts no
text, offset by offset. -/
theorem bytes_apply
    (proper : ∀ edit ∈ edits, Text.IsSlice source edit.start edit.stop)
    (disjoint : edits.Pairwise Disjoint)
    (simple : ∀ edit ∈ edits, edit.start = edit.stop ∨ edit.text = "") :
    Text.bytes (apply source edits) =
      (List.range (source.utf8ByteSize + 1)).flatMap fun offset =>
        insertedAt edits offset ++ keptAt source edits offset := by
  rw [apply, bytes_applyFrom (apart_mergeSort proper disjoint), List.range_eq_range']
  simp only [insertedAt_mergeSort simple, keptAt_mergeSort, Nat.sub_zero]

end SourceQuote.Edit

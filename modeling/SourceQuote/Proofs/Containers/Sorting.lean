import Mathlib.Data.List.Basic

/-!
Contract: what sorting does to items that share a key, and to items that do not.

Owns: sorting commutes with dropping items, so that items of one key keep their order; and a list
whose items all have keys of their own is sorted to the same list from any order.
-/

namespace SourceQuote

variable {α κ : Type}

section Keys

variable [Ord κ] [Std.TransOrd κ] {key : α → κ}

theorem ascends_trans (first second third : α)
    (lower : decide (compare (key first) (key second) ≠ .gt) = true)
    (upper : decide (compare (key second) (key third) ≠ .gt) = true) :
    decide (compare (key first) (key third) ≠ .gt) = true := by
  simp only [decide_eq_true_eq, ← Ordering.isLE_iff_ne_gt] at lower upper ⊢
  exact Std.TransCmp.isLE_trans lower upper

theorem ascends_total (first second : α) :
    (decide (compare (key first) (key second) ≠ .gt) ||
      decide (compare (key second) (key first) ≠ .gt)) = true := by
  simp only [Bool.or_eq_true, decide_eq_true_eq]
  by_cases lower : compare (key first) (key second) = .gt
  · right
    rw [Std.OrientedCmp.lt_of_gt lower]
    decide
  · exact Or.inl lower

end Keys

section Sorting

variable {le : α → α → Bool}
  (trans : ∀ first second third, le first second → le second third → le first third)
  (total : ∀ first second, le first second || le second first)

include trans total

/-- Sorting is stable, so it does not matter whether items are dropped before or after it. -/
theorem filter_mergeSort (keep : α → Bool) (items : List α) :
    (items.mergeSort le).filter keep = (items.filter keep).mergeSort le := by
  induction items with
  | nil => simp
  | cons item rest inductionHypothesis =>
      obtain ⟨front, back, sorted, restSorted, above⟩ := List.mergeSort_cons trans total item rest
      rw [restSorted, List.filter_append] at inductionHypothesis
      rw [sorted, List.filter_append, List.filter_cons]
      by_cases kept : keep item = true
      · rw [if_pos kept, List.filter_cons_of_pos kept]
        obtain ⟨keptFront, keptBack, keptSorted, keptRest, keptAbove⟩ :=
          List.mergeSort_cons trans total item (rest.filter keep)
        rw [keptRest] at inductionHypothesis
        -- Both splits are at the first item that `item` may stand before.
        have cut : ∀ {before after : List α}, (∀ other ∈ before, !le item other) →
            (∀ other ∈ after, le item other) →
            (before ++ after).takeWhile (fun other => !le item other) = before := by
          intro before after isAbove isBelow
          rw [List.takeWhile_append_of_pos isAbove]
          cases after with
          | nil => simp
          | cons first others => simp [isBelow first List.mem_cons_self]
        have below : ∀ other ∈ back, le item other := by
          have ordered := List.pairwise_mergeSort trans total (item :: rest)
          rw [sorted, List.pairwise_append, List.pairwise_cons] at ordered
          exact ordered.2.1.1
        have keptBelow : ∀ other ∈ keptBack, le item other := by
          have ordered := List.pairwise_mergeSort trans total (item :: rest.filter keep)
          rw [keptSorted, List.pairwise_append, List.pairwise_cons] at ordered
          exact ordered.2.1.1
        have sameFront : front.filter keep = keptFront := by
          have aboveKept : ∀ other ∈ front.filter keep, !le item other :=
            fun other member => above other (List.mem_of_mem_filter member)
          have belowKept : ∀ other ∈ back.filter keep, le item other :=
            fun other member => below other (List.mem_of_mem_filter member)
          rw [← cut aboveKept belowKept, inductionHypothesis, cut keptAbove keptBelow]
        rw [sameFront, List.append_cancel_left_eq] at inductionHypothesis
        rw [keptSorted, sameFront, inductionHypothesis]
      · rw [if_neg kept, List.filter_cons_of_neg kept]
        exact inductionHypothesis

/-- Items that may stand in either order are the same: then the order before sorting is of no
account. -/
theorem mergeSort_eq_of_perm {items other : List α} (permuted : items.Perm other)
    (antisymm : ∀ first ∈ items, ∀ second ∈ items, le first second → le second first →
      first = second) :
    items.mergeSort le = other.mergeSort le := by
  have sorted := List.pairwise_mergeSort trans total items
  have otherSorted := List.pairwise_mergeSort trans total other
  have same : (items.mergeSort le).Perm (other.mergeSort le) :=
    (List.mergeSort_perm items le).trans (permuted.trans (List.mergeSort_perm other le).symm)
  refine List.Perm.eq_of_pairwise ?_ sorted otherSorted same
  intro first second isFirst isSecond
  exact antisymm first (List.mem_mergeSort.mp isFirst) second
    (permuted.mem_iff.mpr (List.mem_mergeSort.mp isSecond))

end Sorting

end SourceQuote

import Mathlib.Data.List.Induction
import SourceQuote.ClassId
import SourceQuote.Containers.InsertionMap
import SourceQuote.Containers.SortedMap

/-!
Contract: the laws of the two kinds of maps.

Owns: what an operation does to a look-up, that a map is the map of its own entries, that
look-ups tell maps apart, and what is left of entries that are inserted one after the other: the
first place and the last value of each key.
-/

namespace SourceQuote

variable {κ α : Type}

namespace SortedMap

section Look

variable [DecidableEq κ]

theorem lookup_cons_ite (key first : κ) (value : α) (rest : List (κ × α)) :
    ((first, value) :: rest).lookup key = if key = first then some value else rest.lookup key := by
  by_cases same : key = first
  · rw [if_pos same, List.lookup_cons, beq_iff_eq.mpr same]
  · rw [if_neg same, List.lookup_cons, beq_eq_false_iff_ne.mpr same]

variable [Ord κ]

theorem get?_filterKeys (map : SortedMap κ α) (keep : κ → Bool) (key : κ) :
    (map.filterKeys keep).get? key = if keep key then map.get? key else none := by
  change (map.entries.filter fun entry => keep entry.1).lookup key =
    if keep key then map.entries.lookup key else none
  induction map.entries with
  | nil => simp
  | cons head rest inductionHypothesis =>
      obtain ⟨first, value⟩ := head
      rw [List.filter_cons, lookup_cons_ite]
      by_cases same : key = first
      · subst same
        by_cases kept : keep key <;> simp [kept, inductionHypothesis]
      · by_cases kept : keep first
        · simp only [kept, if_true, lookup_cons_ite, same, if_false, inductionHypothesis]
        · simp only [kept, if_false, same, inductionHypothesis, Bool.false_eq_true]

theorem get?_erase (map : SortedMap κ α) (key other : κ) :
    (map.erase key).get? other = if other = key then none else map.get? other := by
  rw [erase, get?_filterKeys]
  by_cases same : other = key <;> simp [same]

@[simp] theorem get?_empty (key : κ) : (∅ : SortedMap κ α).get? key = none :=
  rfl

theorem lookup_insertEntry [Std.LawfulEqOrd κ] (key other : κ) (value : α) (entries : List (κ × α)) :
    (insertEntry key value entries).lookup other =
      if other = key then some value else entries.lookup other := by
  induction entries with
  | nil => rw [insertEntry, lookup_cons_ite]
  | cons head rest inductionHypothesis =>
      obtain ⟨first, old⟩ := head
      unfold insertEntry
      split
      · rw [lookup_cons_ite]
      · next equal =>
          have sameKey : key = first := Std.LawfulEqOrd.eq_of_compare equal
          subst sameKey
          rw [lookup_cons_ite, lookup_cons_ite]
          by_cases same : other = key <;> simp [same]
      · next above =>
          have differs : key ≠ first := by
            rintro rfl
            rw [Std.ReflOrd.compare_self] at above
            cases above
          rw [lookup_cons_ite, lookup_cons_ite, inductionHypothesis]
          by_cases sameFirst : other = first
          · subst sameFirst
            simp [differs.symm]
          · simp [sameFirst]

theorem get?_insert [Std.TransOrd κ] [Std.LawfulEqOrd κ] (map : SortedMap κ α) (key other : κ) (value : α) :
    (map.insert key value).get? other = if other = key then some value else map.get? other :=
  lookup_insertEntry key other value map.entries

theorem length_insertEntry_of_fresh [Std.LawfulEqOrd κ] {key : κ} {entries : List (κ × α)}
    (fresh : entries.lookup key = none) (value : α) :
    (insertEntry key value entries).length = entries.length + 1 := by
  induction entries with
  | nil => rfl
  | cons head rest inductionHypothesis =>
      obtain ⟨first, old⟩ := head
      rw [lookup_cons_ite] at fresh
      split at fresh
      · cases fresh
      · next differs =>
          unfold insertEntry
          split
          · rfl
          · next equal => exact absurd (Std.LawfulEqOrd.eq_of_compare equal) differs
          · rw [List.length_cons, inductionHypothesis fresh, List.length_cons]

theorem size_insert_of_fresh [Std.TransOrd κ] [Std.LawfulEqOrd κ] {map : SortedMap κ α} {key : κ}
    (fresh : map.get? key = none) (value : α) : (map.insert key value).size = map.size + 1 :=
  length_insertEntry_of_fresh fresh value

theorem mem_keys (map : SortedMap κ α) (key : κ) :
    key ∈ map.keys ↔ (map.get? key).isSome = true := by
  change key ∈ map.entries.map Prod.fst ↔ (map.entries.lookup key).isSome = true
  induction map.entries with
  | nil => simp
  | cons head rest inductionHypothesis =>
      rw [List.map_cons, List.mem_cons, inductionHypothesis, lookup_cons_ite]
      by_cases same : key = head.1 <;> simp [same]

end Look

variable [Ord κ] [Std.TransOrd κ]

theorem nodup_keys (map : SortedMap κ α) : map.keys.Nodup := by
  refine List.pairwise_map.mpr (map.ascending.imp fun {first second} before same => ?_)
  rw [Before, same, Std.ReflOrd.compare_self] at before
  cases before

theorem insertEntry_of_last {key : κ} {value : α} {entries : List (κ × α)}
    (last : ∀ entry ∈ entries, compare entry.1 key = .lt) :
    insertEntry key value entries = entries ++ [(key, value)] := by
  induction entries with
  | nil => rfl
  | cons head rest inductionHypothesis =>
      have above : compare key head.1 = .gt :=
        Std.OrientedCmp.gt_of_lt (last head List.mem_cons_self)
      unfold insertEntry
      simp only [above]
      rw [inductionHypothesis fun entry member => last entry (List.mem_cons_of_mem _ member)]
      rfl

theorem entries_foldl_insert (entries : List (κ × α)) (map : SortedMap κ α)
    (ascending : (map.entries ++ entries).Pairwise Before) :
    (entries.foldl (fun map entry => map.insert entry.1 entry.2) map).entries =
      map.entries ++ entries := by
  induction entries generalizing map with
  | nil => simp
  | cons entry rest inductionHypothesis =>
      have inserted : (map.insert entry.1 entry.2).entries = map.entries ++ [entry] := by
        refine insertEntry_of_last fun earlier member => ?_
        exact (List.pairwise_append.mp ascending).2.2 earlier member entry List.mem_cons_self
      rw [List.foldl_cons, inductionHypothesis, inserted, List.append_assoc]
      · rfl
      · rw [inserted, List.append_assoc]
        exact ascending

theorem ofList_entries (map : SortedMap κ α) : ofList map.entries = map := by
  obtain ⟨entries, ascending⟩ := map
  have same := entries_foldl_insert entries (empty : SortedMap κ α) ascending
  unfold ofList
  revert same
  generalize entries.foldl (fun map entry => map.insert entry.1 entry.2) empty = filled
  intro same
  cases filled
  cases same
  rfl

section Extensionality

variable [DecidableEq κ] {entries others : List (κ × α)}

theorem lookup_eq_none_of_before {key : κ}
    (before : ∀ entry ∈ entries, compare key entry.1 = .lt) : entries.lookup key = none := by
  rw [List.lookup_eq_none_iff]
  intro entry member
  rw [bne_iff_ne]
  rintro rfl
  have irreflexive := before entry member
  rw [Std.ReflOrd.compare_self] at irreflexive
  cases irreflexive

/-- The head of one list cannot come before the head of the other: it would be missing there. -/
theorem head_not_before {head other : κ × α} {rest : List (κ × α)}
    (ascending : (other :: others).Pairwise Before)
    (same : (head :: rest).lookup head.1 = (other :: others).lookup head.1) :
    compare head.1 other.1 ≠ .lt := by
  intro before
  have missing : (other :: others).lookup head.1 = none := by
    refine lookup_eq_none_of_before fun entry member => ?_
    rcases List.mem_cons.mp member with rfl | later
    · exact before
    · exact Std.TransCmp.lt_trans before ((List.pairwise_cons.mp ascending).1 entry later)
  rw [missing, lookup_cons_ite, if_pos rfl] at same
  cases same

theorem entries_eq_of_lookup [Std.LawfulEqOrd κ] (ascending : entries.Pairwise Before)
    (othersAscending : others.Pairwise Before)
    (same : ∀ key, entries.lookup key = others.lookup key) : entries = others := by
  induction entries generalizing others with
  | nil =>
      cases others with
      | nil => rfl
      | cons other others =>
          have missing := same other.1
          rw [lookup_cons_ite, if_pos rfl] at missing
          cases missing
  | cons head rest inductionHypothesis =>
      cases others with
      | nil =>
          have missing := same head.1
          rw [lookup_cons_ite, if_pos rfl] at missing
          cases missing
      | cons other others =>
          have sameKey : head.1 = other.1 := by
            have notBefore := head_not_before othersAscending (same head.1)
            have notAfter := head_not_before ascending (same other.1).symm
            apply Std.LawfulEqOrd.eq_of_compare
            cases order : compare head.1 other.1 with
            | lt => exact absurd order notBefore
            | eq => rfl
            | gt => exact absurd (Std.OrientedCmp.lt_of_gt order) notAfter
          obtain ⟨key, value⟩ := head
          obtain ⟨_, otherValue⟩ := other
          subst sameKey
          have sameValue := same key
          rw [lookup_cons_ite, if_pos rfl, lookup_cons_ite, if_pos rfl] at sameValue
          rw [List.pairwise_cons] at ascending othersAscending
          have sameRest : ∀ wanted, rest.lookup wanted = others.lookup wanted := by
            intro wanted
            by_cases isHead : wanted = key
            · rw [isHead, lookup_eq_none_of_before ascending.1,
                lookup_eq_none_of_before othersAscending.1]
            · have sameCons := same wanted
              rwa [lookup_cons_ite, if_neg isHead, lookup_cons_ite, if_neg isHead] at sameCons
          rw [Option.some.inj sameValue, inductionHypothesis ascending.2 othersAscending.2 sameRest]

/-- Maps with the same look-ups are the same. -/
theorem eq_of_get?_eq [Std.LawfulEqOrd κ] {first second : SortedMap κ α}
    (same : ∀ key, first.get? key = second.get? key) : first = second := by
  obtain ⟨entries, ascending⟩ := first
  obtain ⟨others, othersAscending⟩ := second
  obtain rfl := entries_eq_of_lookup ascending othersAscending same
  rfl

end Extensionality

end SortedMap

instance : Std.LawfulEqOrd ClassId where
  eq_of_compare {first second} equal := by
    obtain ⟨firstModule, firstName⟩ := first
    obtain ⟨secondModule, secondName⟩ := second
    have both : compare firstModule secondModule = .eq ∧ compare firstName secondName = .eq :=
      Ordering.then_eq_eq.mp equal
    rw [Std.LawfulEqOrd.eq_of_compare both.1, Std.LawfulEqOrd.eq_of_compare both.2]

namespace InsertionMap

theorem insertEntry_of_fresh {key : String} {value : α} {entries : List (String × α)}
    (fresh : key ∉ entries.map Prod.fst) :
    insertEntry key value entries = entries ++ [(key, value)] := by
  induction entries with
  | nil => rfl
  | cons head rest inductionHypothesis =>
      simp only [List.map_cons, List.mem_cons, not_or] at fresh
      unfold insertEntry
      rw [if_neg (Ne.symm fresh.1), inductionHypothesis fresh.2]
      rfl

theorem entries_foldl_insert (entries : List (String × α)) (map : InsertionMap α)
    (distinct : ((map.entries ++ entries).map Prod.fst).Nodup) :
    (entries.foldl (fun map entry => map.insert entry.1 entry.2) map).entries =
      map.entries ++ entries := by
  induction entries generalizing map with
  | nil => simp
  | cons entry rest inductionHypothesis =>
      have inserted : (map.insert entry.1 entry.2).entries = map.entries ++ [entry] := by
        refine insertEntry_of_fresh fun known => ?_
        rw [List.map_append, List.nodup_append] at distinct
        exact distinct.2.2 entry.1 known entry.1 (by simp) rfl
      rw [List.foldl_cons, inductionHypothesis, inserted, List.append_assoc]
      · rfl
      · rw [inserted, List.append_assoc]
        exact distinct

theorem ofList_entries (map : InsertionMap α) : ofList map.entries = map := by
  obtain ⟨entries, distinct⟩ := map
  have same := entries_foldl_insert entries (empty : InsertionMap α) distinct
  unfold ofList
  revert same
  generalize entries.foldl (fun map entry => map.insert entry.1 entry.2) empty = filled
  intro same
  cases filled
  cases same
  rfl

theorem lookup_insertEntry (key other : String) (value : α) (entries : List (String × α)) :
    (insertEntry key value entries).lookup other =
      if other = key then some value else entries.lookup other := by
  induction entries with
  | nil => rw [insertEntry, SortedMap.lookup_cons_ite]
  | cons head rest inductionHypothesis =>
      obtain ⟨first, old⟩ := head
      unfold insertEntry
      split
      · next same =>
          subst same
          rw [SortedMap.lookup_cons_ite, SortedMap.lookup_cons_ite]
          by_cases wanted : other = first <;> simp [wanted]
      · next differs =>
          rw [SortedMap.lookup_cons_ite, SortedMap.lookup_cons_ite, inductionHypothesis]
          by_cases wanted : other = first
          · subst wanted
            simp [differs]
          · simp [wanted]

theorem get?_insert (map : InsertionMap α) (key other : String) (value : α) :
    (map.insert key value).get? other = if other = key then some value else map.get? other :=
  lookup_insertEntry key other value map.entries

theorem keys_insert (map : InsertionMap α) (key : String) (value : α) :
    (map.insert key value).keys = if key ∈ map.keys then map.keys else map.keys ++ [key] :=
  keys_insertEntry key value map.entries

/-! ### Entries inserted one after the other -/

variable {entries before after : List (String × α)}

theorem ofList_concat (entries : List (String × α)) (entry : String × α) :
    ofList (entries ++ [entry]) = (ofList entries).insert entry.1 entry.2 := by
  rw [ofList, List.foldl_append]
  rfl

theorem mem_keys_ofList {key : String} :
    key ∈ (ofList entries).keys ↔ key ∈ entries.map Prod.fst := by
  induction entries using List.reverseRecOn with
  | nil => rfl
  | append_singleton entries entry inductionHypothesis =>
      rw [ofList_concat, keys_insert, List.map_append, List.mem_append, ← inductionHypothesis]
      split
      · next known =>
          constructor
          · exact .inl
          · rintro (old | new)
            · exact old
            · rwa [List.mem_singleton.mp new]
      · rw [List.mem_append]
        rfl

/-- The keys stand in the order in which they first occur among the entries. -/
theorem keys_ofList_pairwise (entries : List (String × α)) :
    (ofList entries).keys.Pairwise fun first second =>
      (entries.map Prod.fst).idxOf first < (entries.map Prod.fst).idxOf second := by
  induction entries using List.reverseRecOn with
  | nil => exact List.Pairwise.nil
  | append_singleton entries entry inductionHypothesis =>
      -- One entry more at the end moves no first occurrence.
      have sameIndex : ∀ key ∈ (ofList entries).keys,
          (((entries ++ [entry]).map Prod.fst).idxOf key) = (entries.map Prod.fst).idxOf key := by
        intro key member
        rw [List.map_append, List.idxOf_append, if_pos (mem_keys_ofList.mp member)]
      have kept : (ofList entries).keys.Pairwise fun first second =>
          ((entries ++ [entry]).map Prod.fst).idxOf first <
            ((entries ++ [entry]).map Prod.fst).idxOf second := by
        refine inductionHypothesis.imp_of_mem ?_
        intro first second isFirst isSecond inOrder
        rwa [sameIndex first isFirst, sameIndex second isSecond]
      rw [ofList_concat, keys_insert]
      split
      · exact kept
      · next fresh =>
          refine List.pairwise_append.mpr ⟨kept, List.pairwise_singleton _ _, ?_⟩
          intro key member new isNew
          rw [List.mem_singleton.mp isNew, sameIndex key member, List.map_append,
            List.idxOf_append, if_neg (fun known => fresh (mem_keys_ofList.mpr known))]
          have inside := List.idxOf_lt_length_iff.mpr (mem_keys_ofList.mp member)
          omega

/-- A key maps to the value of the last entry under it. -/
theorem get?_ofList_of_last {entry : String × α} (last : entry.1 ∉ after.map Prod.fst) :
    (ofList (before ++ entry :: after)).get? entry.1 = some entry.2 := by
  induction after using List.reverseRecOn with
  | nil => rw [ofList_concat, get?_insert, if_pos rfl]
  | append_singleton after next inductionHypothesis =>
      rw [List.map_append, List.mem_append, not_or] at last
      have differs : entry.1 ≠ next.1 := by
        intro same
        exact last.2 (List.mem_singleton.mpr same)
      rw [← List.cons_append, ← List.append_assoc, ofList_concat, get?_insert, if_neg differs,
        inductionHypothesis last.1]

end InsertionMap

end SourceQuote

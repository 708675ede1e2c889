/-!
Contract: finite maps from texts that keep the order of first insertion.

Owns: the type, with the distinctness of its keys in it; look-up and insertion.

A second insertion under a key replaces the value and leaves the key where it
first stood.
-/

namespace SourceQuote

variable {α : Type}

/-- A finite map from texts with its entries in the order of first insertion. -/
structure InsertionMap (α : Type) where
  entries : List (String × α)
  distinct : (entries.map Prod.fst).Nodup

namespace InsertionMap

/-- Replaces the value of a key in place, or appends the entry. -/
def insertEntry (key : String) (value : α) : List (String × α) → List (String × α)
  | [] => [(key, value)]
  | (other, old) :: rest =>
      if other = key then
        (key, value) :: rest
      else
        (other, old) :: insertEntry key value rest

/-- The keys after an insertion: the same ones, or one more at the end. -/
theorem keys_insertEntry (key : String) (value : α) (entries : List (String × α)) :
    (insertEntry key value entries).map Prod.fst =
      if key ∈ entries.map Prod.fst then entries.map Prod.fst
      else entries.map Prod.fst ++ [key] := by
  induction entries with
  | nil => simp [insertEntry]
  | cons head rest inductionHypothesis =>
      obtain ⟨other, old⟩ := head
      unfold insertEntry
      split
      · next same => simp [same]
      · next different =>
          rw [List.map_cons, inductionHypothesis]
          by_cases known : key ∈ rest.map Prod.fst
          · simp [known]
          · have headDiffers : key ≠ other := fun same => different same.symm
            rw [if_neg known, if_neg]
            · simp
            · simp only [List.map_cons, List.mem_cons, not_or]
              exact ⟨headDiffers, known⟩

/-- Insertion keeps the keys distinct. -/
theorem insertEntry_distinct (key : String) (value : α) {entries : List (String × α)}
    (distinct : (entries.map Prod.fst).Nodup) :
    ((insertEntry key value entries).map Prod.fst).Nodup := by
  rw [keys_insertEntry]
  split
  · exact distinct
  · next fresh =>
      rw [List.nodup_append]
      refine ⟨distinct, by simp, ?_⟩
      intro old member new isNew same
      rw [List.mem_singleton] at isNew
      exact fresh (isNew ▸ same ▸ member)

def empty : InsertionMap α :=
  ⟨[], List.nodup_nil⟩

instance : EmptyCollection (InsertionMap α) :=
  ⟨empty⟩

/-- Associates a value with a key; a key that is there keeps its place. -/
def insert (map : InsertionMap α) (key : String) (value : α) : InsertionMap α :=
  ⟨insertEntry key value map.entries, insertEntry_distinct key value map.distinct⟩

def ofList (entries : List (String × α)) : InsertionMap α :=
  entries.foldl (fun map entry => map.insert entry.1 entry.2) empty

def get? (map : InsertionMap α) (key : String) : Option α :=
  map.entries.lookup key

/-- The keys in the order of first insertion. -/
def keys (map : InsertionMap α) : List String :=
  map.entries.map Prod.fst

def size (map : InsertionMap α) : Nat :=
  map.entries.length

def isEmpty (map : InsertionMap α) : Bool :=
  map.entries.isEmpty

end InsertionMap

end SourceQuote

/-!
Contract: finite maps whose entries ascend by key.

Owns: the type, with the order of its entries in it; look-up, insertion,
removal and restriction to some keys; and what these do to a look-up.

Two maps with the same entries are the same value, whatever order they were
filled in.
-/

namespace SourceQuote

variable {κ α : Type}

def SortedMap.Before [Ord κ] (first second : κ × α) : Prop :=
  compare first.1 second.1 = .lt

/-- A finite map with its entries in ascending order of their keys. -/
structure SortedMap (κ α : Type) [Ord κ] where
  entries : List (κ × α)
  ascending : entries.Pairwise SortedMap.Before

namespace SortedMap

/-- Puts an entry in its place, over one with the same key. -/
def insertEntry [Ord κ] (key : κ) (value : α) : List (κ × α) → List (κ × α)
  | [] => [(key, value)]
  | (other, old) :: rest =>
      match compare key other with
      | .lt => (key, value) :: (other, old) :: rest
      | .eq => (key, value) :: rest
      | .gt => (other, old) :: insertEntry key value rest

/-- An entry after insertion is the new one or an old one. -/
theorem mem_insertEntry [Ord κ] {key : κ} {value : α} {entries : List (κ × α)}
    {entry : κ × α}
    (member : entry ∈ insertEntry key value entries) :
    entry = (key, value) ∨ entry ∈ entries := by
  induction entries with
  | nil => simpa [insertEntry] using member
  | cons head rest inductionHypothesis =>
      unfold insertEntry at member
      split at member
      · simpa using member
      · rcases List.mem_cons.1 member with same | old
        · exact Or.inl same
        · exact Or.inr (List.mem_cons_of_mem _ old)
      · rcases List.mem_cons.1 member with same | old
        · exact Or.inr (by simp [same])
        · rcases inductionHypothesis old with same | old
          · exact Or.inl same
          · exact Or.inr (List.mem_cons_of_mem _ old)

/-- Insertion keeps the entries ascending. -/
theorem insertEntry_ascending [Ord κ] [Std.TransOrd κ] {key : κ} {value : α}
    {entries : List (κ × α)}
    (ascending : entries.Pairwise Before) :
    (insertEntry key value entries).Pairwise Before := by
  induction entries with
  | nil => simp [insertEntry]
  | cons head rest inductionHypothesis =>
      obtain ⟨other, old⟩ := head
      have headBefore := (List.pairwise_cons.1 ascending).1
      have restAscending := ascending.of_cons
      unfold insertEntry
      split
      · next below =>
          refine List.Pairwise.cons ?_ ascending
          intro entry member
          rcases List.mem_cons.1 member with same | later
          · subst same; exact below
          · exact Std.TransCmp.lt_trans below (headBefore _ later)
      · next equal =>
          refine List.Pairwise.cons ?_ restAscending
          intro entry member
          exact Std.TransCmp.lt_of_eq_of_lt equal (headBefore _ member)
      · next above =>
          refine List.Pairwise.cons ?_ (inductionHypothesis restAscending)
          intro entry member
          rcases mem_insertEntry member with same | later
          · subst same
            exact Std.OrientedCmp.lt_of_gt above
          · exact headBefore _ later

def empty [Ord κ] : SortedMap κ α :=
  ⟨[], List.Pairwise.nil⟩

instance [Ord κ] : EmptyCollection (SortedMap κ α) :=
  ⟨empty⟩

/-- Associates a value with a key, in place of the value it had. -/
def insert [Ord κ] [Std.TransOrd κ] (map : SortedMap κ α) (key : κ) (value : α) :
    SortedMap κ α :=
  ⟨insertEntry key value map.entries, insertEntry_ascending map.ascending⟩

def ofList [Ord κ] [Std.TransOrd κ] (entries : List (κ × α)) : SortedMap κ α :=
  entries.foldl (fun map entry => map.insert entry.1 entry.2) empty

def get? [Ord κ] [DecidableEq κ] (map : SortedMap κ α) (key : κ) : Option α :=
  map.entries.lookup key

def filterKeys [Ord κ] (map : SortedMap κ α) (keep : κ → Bool) : SortedMap κ α :=
  ⟨map.entries.filter fun entry => keep entry.1, map.ascending.filter _⟩

def erase [Ord κ] [DecidableEq κ] (map : SortedMap κ α) (key : κ) : SortedMap κ α :=
  map.filterKeys (· ≠ key)

def contains [Ord κ] [DecidableEq κ] (map : SortedMap κ α) (key : κ) : Bool :=
  (map.get? key).isSome

def keys [Ord κ] (map : SortedMap κ α) : List κ :=
  map.entries.map Prod.fst

def size [Ord κ] (map : SortedMap κ α) : Nat :=
  map.entries.length

end SortedMap

end SourceQuote

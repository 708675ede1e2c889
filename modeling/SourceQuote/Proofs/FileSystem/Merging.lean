import SourceQuote.Proofs.FileSystem.Directories

/-!
Contract: file systems that grew apart, and the one that holds what each of them gained.

Owns: changes to a file system as patches, and the merge of several file systems that come from
one. A merge is determined by what it merges, and it stays a merge when one of the file systems
and the merge are patched alike, if the patch says nothing else than the others do.
-/

namespace SourceQuote.FileSystem

theorem ext_entry {fs other : FileSystem}
    (same : ∀ location, fs.entry? location = other.entry? location)
    (top : fs.entries[([] : Location)]? = other.entries[([] : Location)]?) : fs = other := by
  obtain ⟨entries⟩ := fs
  obtain ⟨otherEntries⟩ := other
  congr 1
  refine Std.ExtTreeMap.ext_getElem? fun location => ?_
  by_cases isTop : location = []
  · rw [isTop]
    exact top
  · have here := same location
    rwa [ entry?, entry?, if_neg isTop, if_neg isTop] at here

theorem entryAt_congr {fs other : FileSystem} {location : Location}
    (sameContent : other.content? location = fs.content? location)
    (sameDirectory : other.isDirectory location = fs.isDirectory location) :
    other.entry? location = fs.entry? location := by
  unfold content? at sameContent
  unfold isDirectory at sameDirectory
  cases own : fs.entry? location with
  | none =>
      cases found : other.entry? location with
      | none => rfl
      | some entry => cases entry <;> simp [own, found] at sameContent sameDirectory
  | some entry =>
      cases found : other.entry? location with
      | none => cases entry <;> simp [own, found] at sameContent sameDirectory
      | some otherEntry =>
          cases entry <;> cases otherEntry <;> simp_all

/-! ## Patches -/

/-- Whether a file system is another but for the places that a patch speaks of. -/
structure Patches (patch : Location → Option Entry) (before after : FileSystem) : Prop where
  entries : ∀ location, after.entry? location = (patch location).or (before.entry? location)
  top : after.entries[([] : Location)]? = before.entries[([] : Location)]?

theorem Patches.refl (fs : FileSystem) : Patches (fun _ => none) fs fs :=
  ⟨fun _ => rfl, rfl⟩

theorem top_put {fs : FileSystem} {location : Location} (below : location ≠ []) (entry : Entry) :
    (fs.put location entry).entries[([] : Location)]? = fs.entries[([] : Location)]? := by
  unfold put
  dsimp only
  rw [Std.ExtTreeMap.getElem?_insert, if_neg]
  intro equal
  exact below (Std.LawfulEqOrd.eq_of_compare equal)

theorem patches_put {fs : FileSystem} {location : Location}
    (free : fs.isDirectory location = false) (entry : Entry) :
    Patches (fun other => if other = location then some entry else none) fs
      (fs.put location entry) := by
  have below : location ≠ [] := by
    rintro rfl
    cases free
  refine ⟨fun other => ?_, top_put below entry⟩
  rw [entryAt_put fs below]
  split <;> rfl

theorem top_makeDirectories (fs : FileSystem) (location : Location) (parts : List (List Char)) :
    (fs.makeDirectories location parts).fs.entries[([] : Location)]? =
      fs.entries[([] : Location)]? := by
  fun_induction makeDirectories fs location parts with
  | case6 fs location piece rest _ _ _ next _ inductionHypothesis =>
      rw [inductionHypothesis, top_put (by simp [next])]
  | case1 | case5 | case7 => rfl
  | case2 | case3 | case4 => assumption

theorem patches_createDirectory (fs : FileSystem) (directory : Location) (path : String) :
    Patches (fun location => if location ∈ fs.made directory path then some .directory else none)
      fs (fs.createDirectory directory path).fs := by
  refine ⟨fun location => ?_, ?_⟩
  · rw [entryAt_createDirectory]
    split <;> rfl
  · unfold createDirectory
    split
    · exact top_makeDirectories _ _ _
    · rfl

/-! ## Merges -/

theorem mem_append_cons {α : Type} {front back : List α} {item other : α} :
    other ∈ front ++ item :: back ↔ other = item ∨ other ∈ front ++ back := by
  rw [List.mem_append, List.mem_cons, List.mem_append]
  exact or_left_comm

/-- Whether a file system is the merge of several that come from one: it holds what each of them
gained, and nothing else. -/
structure Merges (origin : FileSystem) (parts : List FileSystem) (whole : FileSystem) :
    Prop where
  kept : ∀ part ∈ parts, ∀ location, part.entry? location ≠ origin.entry? location →
    whole.entry? location = part.entry? location
  only : ∀ location, whole.entry? location ≠ origin.entry? location →
    ∃ part ∈ parts, part.entry? location = whole.entry? location
  top : whole.entries[([] : Location)]? = origin.entries[([] : Location)]?

namespace Merges

variable {origin whole : FileSystem} {parts : List FileSystem} {location : Location}

theorem refl (same : ∀ part ∈ parts, part = origin) : Merges origin parts origin where
  kept part member location differs := absurd (by rw [same part member]) differs
  only location differs := absurd rfl differs
  top := rfl

/-- A merge is determined by what it merges. -/
theorem unique {other : FileSystem} (merges : Merges origin parts whole)
    (otherMerges : Merges origin parts other) : whole = other := by
  refine ext_entry (fun location => ?_) (merges.top.trans otherMerges.top.symm)
  by_cases gained : ∃ part ∈ parts, part.entry? location ≠ origin.entry? location
  · obtain ⟨part, member, differs⟩ := gained
    rw [merges.kept part member location differs, otherMerges.kept part member location differs]
  · have same : ∀ {fs : FileSystem}, Merges origin parts fs →
        fs.entry? location = origin.entry? location := by
      intro fs isMerge
      by_contra differs
      obtain ⟨part, member, equal⟩ := isMerge.only location differs
      exact gained ⟨part, member, by rwa [equal]⟩
    rw [same merges, same otherMerges]

theorem content?_eq (merges : Merges origin parts whole)
    (same : ∀ part ∈ parts, part.content? location = origin.content? location) :
    whole.content? location = origin.content? location := by
  by_cases unchanged : whole.entry? location = origin.entry? location
  · rw [content?, unchanged, content?]
  · obtain ⟨part, member, equal⟩ := merges.only location unchanged
    rw [← same part member, content?, ← equal, content?]

theorem isDirectory_eq (merges : Merges origin parts whole)
    (same : ∀ part ∈ parts, part.isDirectory location = origin.isDirectory location) :
    whole.isDirectory location = origin.isDirectory location := by
  by_cases unchanged : whole.entry? location = origin.entry? location
  · rw [isDirectory, unchanged, isDirectory]
  · obtain ⟨part, member, equal⟩ := merges.only location unchanged
    rw [← same part member, isDirectory, ← equal, isDirectory]

theorem isDirectory_of_part {part : FileSystem} (merges : Merges origin parts whole)
    (member : part ∈ parts)
    (kept : origin.isDirectory location = true → whole.isDirectory location = true)
    (isDirectory : part.isDirectory location = true) : whole.isDirectory location = true := by
  rw [isDirectory_eq_true_iff] at isDirectory kept ⊢
  by_cases same : part.entry? location = origin.entry? location
  · exact isDirectory_eq_true_iff.mp (kept (same ▸ isDirectory))
  · rw [merges.kept part member location same, isDirectory]

theorem keeps {touched : Set Location} (merges : Merges origin parts whole)
    (each : ∀ part ∈ parts, Keeps touched origin part) : Keeps touched origin whole where
  directories location isDirectory := by
    by_cases unchanged : whole.entry? location = origin.entry? location
    · rwa [FileSystem.isDirectory, unchanged]
    · obtain ⟨part, member, equal⟩ := merges.only location unchanged
      have stays := (each part member).directories location isDirectory
      rwa [FileSystem.isDirectory, ← equal]
  contents location outside :=
    merges.content?_eq fun part member => (each part member).contents location outside

/-- One of the merged file systems and the merge change alike. -/
theorem patch {front back : List FileSystem} {before after later : FileSystem}
    {patch : Location → Option Entry}
    (merges : Merges origin (front ++ before :: back) whole)
    (patched : Patches patch before after) (wholePatched : Patches patch whole later)
    (agrees : ∀ part ∈ front ++ back, ∀ location entry, patch location = some entry →
      part.entry? location = origin.entry? location ∨ part.entry? location = some entry) :
    Merges origin (front ++ after :: back) later where
  kept part member location differs := by
    rw [wholePatched.entries]
    rcases mem_append_cons.mp member with rfl | isOther
    · rw [patched.entries] at differs ⊢
      cases spoken : patch location with
      | some entry => rfl
      | none =>
          rw [spoken] at differs
          exact merges.kept before (mem_append_cons.mpr (Or.inl rfl)) location differs
    · cases spoken : patch location with
      | some entry =>
          exact ((agrees part isOther location entry spoken).resolve_left differs).symm
      | none => exact merges.kept part (mem_append_cons.mpr (Or.inr isOther)) location differs
  only location differs := by
    rw [wholePatched.entries] at differs ⊢
    cases spoken : patch location with
    | some entry =>
        refine ⟨after, mem_append_cons.mpr (Or.inl rfl), ?_⟩
        rw [patched.entries, spoken]
        rfl
    | none =>
        rw [spoken] at differs
        obtain ⟨part, member, equal⟩ := merges.only location differs
        rcases mem_append_cons.mp member with rfl | isOther
        · refine ⟨after, mem_append_cons.mpr (Or.inl rfl), ?_⟩
          rw [patched.entries, spoken]
          exact equal
        · exact ⟨part, mem_append_cons.mpr (Or.inr isOther), equal⟩
  top := wholePatched.top.trans merges.top

end Merges

end SourceQuote.FileSystem

import SourceQuote.Proofs.FileSystem.Merging

/-!
Contract: saving files in a file system that is in order.

Owns: that saving a file leaves a well-formed file system well-formed, and that saving what a
file holds already changes nothing at all, not even the directories above it.
-/

namespace SourceQuote.FileSystem

open SourceQuote.Text
open SourceQuote.Path (ProperName)

variable {fs : FileSystem} {directory location : Location} {path : String}

/-! ## Well-formed file systems -/

theorem properName_ofList {piece : List Char} (moves : ¬ staysPut piece = true)
    (notUp : ¬ piece = ['.', '.']) (whole : '/' ∉ piece) : ProperName (String.ofList piece) := by
  refine ⟨?_, ?_, ?_⟩
  · simpa [staysPut] using moves
  · simpa using notUp
  · simpa using whole

theorem WellFormed.isDirectory_dropLast (wellFormed : fs.WellFormed)
    (here : fs.isDirectory location = true) : fs.isDirectory location.dropLast = true :=
  (wellFormed.grounded here).dropLast.isDirectory

/-- What is put into a directory in the place of no other directory leaves everything in order. -/
theorem WellFormed.put (wellFormed : fs.WellFormed) {name : String} (proper : ProperName name)
    (here : fs.isDirectory location = true)
    (free : fs.isDirectory (location ++ [name]) = false) (entry : Entry) :
    (fs.put (location ++ [name]) entry).WellFormed where
  proper other found stands := by
    rw [entryAt_put fs (by simp)] at stands
    split at stands
    · next same =>
        subst same
        intro each member
        rcases List.mem_append.mp member with inside | last
        · exact wellFormed.proper location _ (isDirectory_eq_true_iff.mp here) each inside
        · rwa [List.mem_singleton.mp last]
    · exact wellFormed.proper other found stands
  above other last found stands := by
    have isDirectory : fs.isDirectory other = true := by
      rw [entryAt_put fs (by simp)] at stands
      split at stands
      · next same => rwa [List.append_inj_left' same rfl]
      · exact wellFormed.above other last found stands
    have differs : other ≠ location ++ [name] := by
      rintro rfl
      rw [free] at isDirectory
      cases isDirectory
    rw [isDirectory_eq_true_iff, entryAt_put fs (by simp), if_neg differs]
    exact isDirectory_eq_true_iff.mp isDirectory

theorem WellFormed.makeDirectories (wellFormed : fs.WellFormed)
    (here : fs.isDirectory location = true) {parts : List (List Char)}
    (whole : ∀ piece ∈ parts, '/' ∉ piece) :
    (fs.makeDirectories location parts).fs.WellFormed := by
  have later : ∀ {piece : List Char} {rest : List (List Char)},
      (∀ other ∈ piece :: rest, '/' ∉ other) → ∀ other ∈ rest, '/' ∉ other :=
    fun all other member => all other (List.mem_cons_of_mem _ member)
  fun_induction FileSystem.makeDirectories fs location parts with
  | case1 => exact wellFormed
  | case2 fs location piece rest stays inductionHypothesis =>
      exact inductionHypothesis wellFormed here (later whole)
  | case3 fs location rest stays inductionHypothesis =>
      exact inductionHypothesis wellFormed (wellFormed.isDirectory_dropLast here) (later whole)
  | case4 fs location piece rest moves notUp fits next stands inductionHypothesis =>
      exact inductionHypothesis wellFormed (isDirectory_eq_true_iff.mpr stands) (later whole)
  | case5 => exact wellFormed
  | case6 fs location piece rest moves notUp fits next free inductionHypothesis =>
      have proper := properName_ofList moves notUp (whole piece List.mem_cons_self)
      have unused : fs.isDirectory next = false := by simp [isDirectory, free]
      refine inductionHypothesis (wellFormed.put proper here unused .directory) ?_ (later whole)
      rw [isDirectory_eq_true_iff, entryAt_put fs (by simp [next]), if_pos rfl]
  | case7 => exact wellFormed

theorem isDirectory_origin (here : fs.isDirectory directory = true) (path : String) :
    fs.isDirectory (origin directory path).1 = true := by
  unfold origin
  split
  · exact isDirectory_top fs
  · exact here

theorem not_mem_of_mem_origin {piece : List Char} (member : piece ∈ (origin directory path).2) :
    '/' ∉ piece := by
  rw [origin_parts] at member
  exact not_mem_of_mem_pieces member

theorem WellFormed.createDirectory (wellFormed : fs.WellFormed)
    (here : fs.isDirectory directory = true) (path : String) :
    (fs.createDirectory directory path).fs.WellFormed := by
  unfold FileSystem.createDirectory
  split
  · exact wellFormed.makeDirectories (isDirectory_origin here path)
      fun piece member => not_mem_of_mem_origin member
  · exact wellFormed

/-- Where a path leads that leads to no directory: to a name in one. -/
theorem WellFormed.exists_above (wellFormed : fs.WellFormed) {reached : Location}
    {parts : List (List Char)} (whole : ∀ piece ∈ parts, '/' ∉ piece)
    (here : fs.isDirectory location = true)
    (followed : fs.follow location parts = some reached)
    (free : fs.isDirectory reached = false) :
    ∃ above name, reached = above ++ [name] ∧ fs.isDirectory above = true ∧ ProperName name := by
  induction parts generalizing location with
  | nil =>
      cases followed
      rw [here] at free
      cases free
  | cons piece rest inductionHypothesis =>
      rw [follow_cons, if_pos here] at followed
      by_cases onward : fs.isDirectory (step location piece) = true
      · exact inductionHypothesis (fun other member => whole other (List.mem_cons_of_mem _ member))
          onward followed
      · -- Nothing comes after a piece that leads to no directory.
        cases rest with
        | cons next others => exact absurd (isDirectory_of_follow_cons followed) onward
        | nil =>
            cases followed
            by_cases stays : staysPut piece = true
            · rw [step, if_pos stays] at onward
              exact absurd here onward
            · by_cases up : piece = ['.', '.']
              · rw [step, if_neg stays, if_pos up] at onward
                exact absurd (wellFormed.isDirectory_dropLast here) onward
              · refine ⟨location, String.ofList piece, ?_, here, ?_⟩
                · rw [step, if_neg stays, if_neg up]
                · exact properName_ofList stays up (whole piece List.mem_cons_self)

theorem WellFormed.save (wellFormed : fs.WellFormed) (here : fs.isDirectory directory = true)
    (path : String) (content : ByteArray) : (fs.save directory path content).fs.WellFormed := by
  have created := wellFormed.createDirectory here (Path.parent path)
  have still := (keeps_createDirectory fs directory (Path.parent path)).directories _ here
  cases made : (fs.createDirectory directory (Path.parent path)).succeeded with
  | false =>
      rw [save_of_unmade made]
      exact created
  | true =>
      rw [save_of_made made]
      split
      · next written wrote =>
          obtain ⟨resolved, free, rfl⟩ := write?_eq_some wrote
          obtain ⟨above, name, isPlace, isDirectory, proper⟩ := created.exists_above
            (fun piece member => not_mem_of_mem_origin member) (isDirectory_origin still path)
            (resolve?_eq_some_iff.mp resolved).2 free
          rw [isPlace] at free ⊢
          exact created.put proper isDirectory free (.file content)
      · dsimp only
        exact created

/-! ## Saving again -/

theorem exists_piece_of_mem_stationsFrom {station : Location} {parts : List (List Char)}
    (member : station ∈ stationsFrom location parts) :
    ∃ piece ∈ parts, station.getLast? = some (String.ofList piece) := by
  induction parts generalizing location with
  | nil => cases member
  | cons piece rest inductionHypothesis =>
      rw [stationsFrom] at member
      split at member
      · obtain ⟨other, isPiece, last⟩ := inductionHypothesis member
        exact ⟨other, List.mem_cons_of_mem _ isPiece, last⟩
      · next moves =>
          rcases List.mem_cons.mp member with rfl | later
          · obtain ⟨moves, notUp⟩ := not_or.mp moves
            exact ⟨piece, List.mem_cons_self, by simp [step, moves, notUp]⟩
          · obtain ⟨other, isPiece, last⟩ := inductionHypothesis later
            exact ⟨other, List.mem_cons_of_mem _ isPiece, last⟩

theorem isAcceptable_of_front {shorter path : String} (front : shorter.toList <+: path.toList)
    (acceptable : isAcceptable path = true) : isAcceptable shorter = true := by
  obtain ⟨rest, whole⟩ := front
  have joined : path = shorter ++ String.ofList rest := by
    rw [← String.toList_inj, String.toList_append, String.toList_ofList, whole]
  rw [isAcceptable, Bool.and_eq_true, decide_eq_true_eq, Bool.not_eq_true'] at acceptable ⊢
  obtain ⟨fits, noNul⟩ := acceptable
  constructor
  · rw [joined, String.utf8ByteSize_append] at fits
    omega
  · rw [List.contains_eq_mem, decide_eq_false_iff_not] at noNul ⊢
    exact fun member => noNul (whole ▸ List.mem_append_left rest member)

/-- Creating a directory changes nothing where all directories on the way stand. -/
theorem createDirectory_of_stations (acceptable : isAcceptable path = true)
    (fits : ∀ station ∈ stations directory path, ∀ name ∈ station.getLast?,
      name.utf8ByteSize ≤ nameLimit)
    (onWay : ∀ station ∈ stations directory path, fs.isDirectory station = true) :
    fs.createDirectory directory path = ⟨fs, true⟩ := by
  have admitted : ∀ station ∈ stations directory path, fs.admits station = true := by
    intro station member
    have stands := isDirectory_eq_true_iff.mp (onWay station member)
    rw [admits, Bool.and_eq_true]
    refine ⟨?_, by simp [content?, stands]⟩
    rw [Option.all_eq_true]
    intro name isLast
    exact decide_eq_true (fits station member name isLast)
  have succeeded := succeeded_createDirectory fs directory path
  rw [acceptable, List.all_eq_true.mpr admitted] at succeeded
  have unchanged : (fs.createDirectory directory path).fs = fs := by
    refine ext_entry (fun location => ?_) (patches_createDirectory fs directory path).top
    rw [entryAt_createDirectory]
    split
    · next member =>
        exact (isDirectory_eq_true_iff.mp (onWay _ (mem_stations_of_mem_made member))).symm
    · rfl
  generalize fs.createDirectory directory path = attempt at succeeded unchanged
  obtain ⟨after, done⟩ := attempt
  rw [← unchanged]
  exact congrArg _ succeeded

theorem put_of_content? {content : ByteArray} (stands : fs.content? location = some content) :
    fs.put location (.file content) = fs := by
  have holds := content?_eq_some_iff.mp stands
  have below : location ≠ [] := by
    rintro rfl
    cases holds
  refine ext_entry (fun other => ?_) (top_put below _)
  rw [entryAt_put fs below]
  split
  · next same => rw [same, holds]
  · rfl

/-- Saving what a file holds already changes nothing. -/
theorem save_of_read? {content : ByteArray} (read : fs.read? directory path = some content) :
    fs.save directory path content = ⟨fs, true⟩ := by
  obtain ⟨reached, resolved, stands⟩ := Option.bind_eq_some_iff.mp read
  obtain rfl := eq_place_of_resolve? resolved
  obtain ⟨⟨acceptable, admissible⟩, followed⟩ := resolve?_eq_some_iff.mp resolved
  have free : fs.isDirectory (place directory path) = false := by
    simp [isDirectory, content?_eq_some_iff.mp stands]
  obtain ⟨front, last, cut⟩ :=
    (List.eq_nil_or_concat (pieces '/' path.toList)).resolve_left (pieces_ne_nil _ _)
  rw [List.concat_eq_append] at cut
  rw [origin_parts, cut, follow_append] at followed
  obtain ⟨between, toAbove, lastStep⟩ := Option.bind_eq_some_iff.mp followed
  have here := isDirectory_of_follow_cons lastStep
  have moves : staysPut last = false := by
    rw [Bool.eq_false_iff]
    intro stays
    rw [follow_cons, if_pos here, step, if_pos stays] at lastStep
    rw [← Option.some.inj lastStep, here] at free
    cases free
  have way := stations_parent directory cut moves (by simp)
  have created : fs.createDirectory directory (Path.parent path) = ⟨fs, true⟩ := by
    refine createDirectory_of_stations
      (isAcceptable_of_front (Path.parent_prefix path) acceptable) ?_ ?_
    · intro station member name isLast
      rw [way] at member
      obtain ⟨piece, isPiece, named⟩ := exists_piece_of_mem_stationsFrom member
      rw [named] at isLast
      rw [isAdmissible, Bool.and_eq_true, List.all_eq_true, cut] at admissible
      rw [← Option.some.inj isLast]
      exact of_decide_eq_true (admissible.2 piece (List.mem_append_left _ isPiece))
    · rw [way]
      exact isDirectory_of_follow toAbove here
  rw [save_of_made (by rw [created]), created, write?_of_resolve? resolved free,
    put_of_content? stands]

end SourceQuote.FileSystem

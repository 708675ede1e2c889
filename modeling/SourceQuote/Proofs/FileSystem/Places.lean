import SourceQuote.FileSystem.Basic
import SourceQuote.Proofs.Path.Pieces

/-!
Contract: the place that a path names.

Owns: the place of a path as its text alone decides it, that every resolved path leads there,
the place of a joined path, the places of outputs, and the places inside a directory. Two files
of one project never share an output, and an output keeps the last name of its file.

A place is named whether or not the directories on the way exist; only following a path asks
for them.
-/

namespace SourceQuote.FileSystem

open SourceQuote.Text
open SourceQuote.Path (Component ProperName)

def step (location : Location) (piece : List Char) : Location :=
  if staysPut piece then location
  else if piece = ['.', '.'] then location.dropLast
  else location ++ [String.ofList piece]

/-- The place that a path names from a directory. -/
def place (directory : Location) (path : String) : Location :=
  (origin directory path).2.foldl step (origin directory path).1

/-- Where one component of a path leads, after the first. -/
def walk (location : Location) : Component → Location
  | .normal name => location ++ [name]
  | .parent => location.dropLast
  | _ => location

/-! ## Following -/

theorem follow_cons (fs : FileSystem) (location : Location) (piece : List Char)
    (rest : List (List Char)) :
    fs.follow location (piece :: rest) =
      if fs.isDirectory location then fs.follow (step location piece) rest else none := by
  rw [follow, step]
  split
  · split
    · rfl
    · split <;> rfl
  · rfl

theorem follow_append (fs : FileSystem) (location : Location) (front back : List (List Char)) :
    fs.follow location (front ++ back) =
      (fs.follow location front).bind fun reached => fs.follow reached back := by
  induction front generalizing location with
  | nil => rfl
  | cons piece rest inductionHypothesis =>
      rw [List.cons_append, follow_cons, follow_cons]
      split
      · exact inductionHypothesis _
      · rfl

theorem eq_of_follow {fs : FileSystem} {location reached : Location}
    {parts : List (List Char)} (followed : fs.follow location parts = some reached) :
    reached = parts.foldl step location := by
  induction parts generalizing location with
  | nil =>
      cases followed
      rfl
  | cons piece rest inductionHypothesis =>
      rw [follow_cons] at followed
      split at followed
      · exact inductionHypothesis followed
      · cases followed

theorem follow_mono {before after : FileSystem}
    (kept : ∀ location, before.isDirectory location = true → after.isDirectory location = true)
    {location reached : Location} {parts : List (List Char)}
    (followed : before.follow location parts = some reached) :
    after.follow location parts = some reached := by
  induction parts generalizing location with
  | nil => exact followed
  | cons piece rest inductionHypothesis =>
      rw [follow_cons] at followed ⊢
      split at followed
      · next isDirectory =>
          rw [if_pos (kept _ isDirectory)]
          exact inductionHypothesis followed
      · cases followed

theorem step_name {name : String} (proper : ProperName name) (location : Location) :
    step location name.toList = location ++ [name] := by
  have moves : staysPut name.toList = false := by simpa [staysPut] using proper.solid
  rw [step, moves, if_neg proper.down, String.ofList_toList]
  rfl

theorem foldl_step_names {names : List String} (proper : ∀ name ∈ names, ProperName name)
    (location : Location) :
    (names.map String.toList).foldl step location = location ++ names := by
  induction names generalizing location with
  | nil => simp
  | cons name rest inductionHypothesis =>
      rw [List.map_cons, List.foldl_cons, step_name (proper name List.mem_cons_self),
        inductionHypothesis fun other member => proper other (List.mem_cons_of_mem _ member)]
      simp

theorem follow_names {fs : FileSystem} {location : Location} {names : List String}
    (proper : ∀ name ∈ names, ProperName name)
    (above : ∀ front back, names = front ++ back → back ≠ [] →
      fs.isDirectory (location ++ front) = true) :
    fs.follow location (names.map String.toList) = some (location ++ names) := by
  induction names generalizing location with
  | nil => simp [follow]
  | cons name rest inductionHypothesis =>
      have here : fs.isDirectory location = true := by
        simpa using above [] (name :: rest) rfl (by simp)
      rw [List.map_cons, follow_cons, if_pos here, step_name (proper name List.mem_cons_self),
        inductionHypothesis]
      · simp
      · exact fun other member => proper other (List.mem_cons_of_mem _ member)
      · intro front back split backSome
        simpa using above (name :: front) back (by simp [split]) backSome

/-! ## Resolving -/

theorem eq_place_of_destination? {fs : FileSystem} {directory reached : Location} {path : String}
    (found : fs.destination? directory path = some reached) : reached = place directory path := by
  rw [destination?] at found
  split at found
  · exact eq_of_follow found
  · cases found

theorem eq_place_of_resolve? {fs : FileSystem} {directory reached : Location} {path : String}
    (found : fs.resolve? directory path = some reached) : reached = place directory path := by
  rw [resolve?] at found
  split at found
  · exact eq_place_of_destination? found
  · cases found

theorem resolve?_mono {before after : FileSystem}
    (kept : ∀ location, before.isDirectory location = true → after.isDirectory location = true)
    {directory reached : Location} {path : String}
    (found : before.resolve? directory path = some reached) :
    after.resolve? directory path = some reached := by
  rw [resolve?, destination?] at found ⊢
  split at found
  · next acceptable =>
      rw [if_pos acceptable]
      split at found
      · next admissible =>
          rw [if_pos admissible]
          exact follow_mono kept found
      · cases found
  · cases found

theorem content?_of_read? {fs : FileSystem} {directory : Location} {path : String}
    {content : ByteArray} (read : fs.read? directory path = some content) :
    fs.content? (place directory path) = some content := by
  obtain ⟨reached, found, stands⟩ := Option.bind_eq_some_iff.mp read
  rwa [← eq_place_of_resolve? found]

/-! ## Places of joined paths -/

theorem place_empty (directory : Location) : place directory "" = directory :=
  rfl

theorem origin_parts (directory : Location) (path : String) :
    (origin directory path).2 = pieces '/' path.toList := by
  rw [origin]
  split <;> rfl

theorem origin_start_join {directory : Location} {base path : String}
    (relative : Path.isAbsolute path = false) (nonempty : base ≠ "") :
    (origin directory (Path.join base path)).1 = (origin directory base).1 := by
  rw [origin, origin, Path.isAbsolute_join relative nonempty]
  split <;> rfl

theorem place_join (directory : Location) {base path : String}
    (relative : Path.isAbsolute path = false) :
    place directory (Path.join base path) =
      (pieces '/' path.toList).foldl step (place directory base) := by
  by_cases empty : base = ""
  · subst empty
    rw [Path.join_empty, place_empty, place, origin, relative]
    rfl
  · obtain ⟨front, _, cut, joined⟩ := Path.pieces_join relative empty
    have same : (pieces '/' base.toList).foldl step (origin directory base).1 =
        front.foldl step (origin directory base).1 := by
      rcases cut with cut | cut
      · rw [cut]
      · rw [cut, List.foldl_append]
        rfl
    rw [place, place, origin_parts, origin_parts, origin_start_join relative empty, joined,
      List.foldl_append, same]

theorem place_join_names (directory : Location) {base : String} {names : List String}
    (proper : ∀ name ∈ names, ProperName name) :
    place directory (Path.join base ("/".intercalate names)) = place directory base ++ names := by
  rw [place_join directory (Path.isAbsolute_names proper)]
  by_cases empty : names = []
  · subst empty
    simp [pieces, step, staysPut]
  · rw [Path.pieces_names empty proper, foldl_step_names proper]

/-! ## Places of outputs -/

theorem foldl_step_eq_foldl_walk (parts : List (List Char)) (location : Location) :
    parts.foldl step location = (parts.filterMap Component.ofPiece).foldl walk location := by
  induction parts generalizing location with
  | nil => rfl
  | cons piece rest inductionHypothesis =>
      rw [List.foldl_cons, inductionHypothesis, step, List.filterMap_cons, Component.ofPiece]
      by_cases stays : piece = [] ∨ piece = ['.']
      · simp [staysPut, stays]
      · by_cases up : piece = ['.', '.'] <;> simp [staysPut, stays, up, walk]

theorem foldl_walk_names (names : List String) (location : Location) :
    (names.map Component.normal).foldl walk location = location ++ names := by
  induction names generalizing location with
  | nil => simp
  | cons name rest inductionHypothesis => simp [walk, inductionHypothesis]

/-- Where one component of a path leads, the first one included. -/
def enter (location : Location) : Component → Location
  | .root => []
  | component => walk location component

theorem foldl_enter_pieces (parts : List (List Char)) (location : Location) :
    (parts.filterMap Component.ofPiece).foldl enter location =
      (parts.filterMap Component.ofPiece).foldl walk location := by
  refine List.foldl_ext _ _ _ fun reached component member => ?_
  obtain ⟨piece, _, isComponent⟩ := List.mem_filterMap.mp member
  cases component with
  | root =>
      unfold Component.ofPiece at isComponent
      split at isComponent
      · cases isComponent
      · split at isComponent <;> cases isComponent
  | current => rfl
  | parent => rfl
  | normal name => rfl

/-- The components of a path say what place it names. -/
theorem place_eq_foldl_enter (directory : Location) (path : String) :
    place directory path = (Path.components path).foldl enter directory := by
  obtain ⟨first, rest, cut⟩ := List.exists_cons_of_ne_nil (pieces_ne_nil '/' path.toList)
  have text := joinPieces_pieces '/' path.toList
  rw [cut] at text
  rw [place, origin_parts, cut, List.foldl_cons, foldl_step_eq_foldl_walk,
    Path.components_eq_of_pieces cut, List.foldl_append, foldl_enter_pieces]
  congr 1
  rw [origin, Path.isAbsolute, ← text]
  cases first with
  | nil => cases rest <;> simp [joinPieces, Component.ofFirstPiece, step, staysPut, enter]
  | cons c others =>
      have notSlash : c ≠ '/' := by
        rintro rfl
        exact not_mem_of_mem_pieces (cut ▸ List.mem_cons_self) List.mem_cons_self
      have starts : (joinPieces '/' ((c :: others) :: rest)).head? = some c := by
        cases rest <;> rfl
      rw [starts]
      simp only [Option.some.injEq, notSlash, decide_false, Bool.false_eq_true, if_false,
        Component.ofFirstPiece, reduceCtorEq]
      by_cases here : c :: others = ['.']
      · simp [here, step, staysPut, enter, walk]
      · by_cases up : c :: others = ['.', '.'] <;>
          simp [here, up, step, staysPut, enter, walk, Component.ofPiece]

theorem place_of_below? (directory : Location) {path base : String} {names : List String}
    (nonempty : base ≠ "") (namesNonempty : names ≠ [])
    (proper : ∀ name ∈ names, ProperName name)
    (found : Path.below? path base = some ("/".intercalate names)) :
    place directory path = place directory base ++ names := by
  obtain ⟨_, parts⟩ := Path.below?_eq_some nonempty found
  rw [place_eq_foldl_enter, parts, List.foldl_append, ← place_eq_foldl_enter,
    foldl_enter_pieces, ← foldl_step_eq_foldl_walk, Path.pieces_names namesNonempty proper,
    foldl_step_names proper]

/-- Where the output of a file goes: what comes after the root in the file's path is walked
from the output directory. -/
theorem place_output (directory : Location) {path root out within : String} (rooted : root ≠ "")
    (found : Path.below? path root = some within) :
    ∃ tail, Path.components path = Path.components root ++ tail ∧
      place directory (Path.join out within) = tail.foldl walk (place directory out) := by
  obtain ⟨relative, parts⟩ := Path.below?_eq_some rooted found
  refine ⟨_, parts, ?_⟩
  rw [place_join directory relative, foldl_step_eq_foldl_walk]

section Outputs

variable {project root within : String} {names : List String}

/-- Where the outputs of a project go: the names that the root shares with all files are taken
off, and the others lead on from one place. That place is the output directory itself unless
the root lies above the project. -/
theorem exists_output_base (directory : Location) (out : String) (named : project ≠ "")
    (rooted : root ≠ "") :
    ∃ base front, (front = [] ∨ base = place directory out) ∧
      ∀ {names : List String} {within : String}, names ≠ [] →
        (∀ name ∈ names, ProperName name) →
        Path.below? (Path.join project ("/".intercalate names)) root = some within →
        ∃ back, names = front ++ back ∧
          place directory (Path.join out within) = base ++ back := by
  by_cases above : ∃ between, Path.components project = Path.components root ++ between
  · obtain ⟨between, above⟩ := above
    refine ⟨between.foldl walk (place directory out), [], Or.inl rfl, ?_⟩
    intro names within nonempty proper found
    obtain ⟨tail, parts, placed⟩ := @place_output directory _ _ out _ rooted found
    rw [Path.components_join_names named nonempty proper, above, List.append_assoc,
      List.append_cancel_left_eq] at parts
    exact ⟨names, rfl, by rw [placed, ← parts, List.foldl_append, foldl_walk_names]⟩
  · by_cases below : ∃ front : List String,
        Path.components root = Path.components project ++ front.map Component.normal
    · obtain ⟨front, below⟩ := below
      refine ⟨place directory out, front, Or.inr rfl, ?_⟩
      intro names within nonempty proper found
      obtain ⟨tail, parts, placed⟩ := @place_output directory _ _ out _ rooted found
      rw [Path.components_join_names named nonempty proper, below, List.append_assoc,
        List.append_cancel_left_eq] at parts
      obtain ⟨frontNames, back, rfl, same, rfl⟩ := List.map_eq_append_iff.mp parts
      have sameFront : frontNames = front :=
        List.map_injective_iff.mpr (fun _ _ equal => Component.normal.inj equal) same
      exact ⟨back, by rw [sameFront], by rw [placed, foldl_walk_names]⟩
    · -- Neither lies above the other, so no file of the project is below the root.
      refine ⟨[], [], Or.inl rfl, ?_⟩
      intro names within nonempty proper found
      obtain ⟨tail, parts, _⟩ := @place_output directory _ _ out _ rooted found
      rw [Path.components_join_names named nonempty proper] at parts
      rcases List.append_eq_append_iff.mp parts with ⟨front, fits, split⟩ | ⟨between, fits, _⟩
      · obtain ⟨frontNames, _, _, rfl, _⟩ := List.map_eq_append_iff.mp split
        exact absurd ⟨frontNames, fits⟩ below
      · exact absurd ⟨between, fits⟩ above

/-- Two files of a project that share the place of their outputs are one file. -/
theorem names_eq_of_place_output {directory : Location} {out : String}
    {otherWithin : String} {otherNames : List String}
    (named : project ≠ "") (rooted : root ≠ "")
    (nonempty : names ≠ []) (otherNonempty : otherNames ≠ [])
    (proper : ∀ name ∈ names, ProperName name)
    (otherProper : ∀ name ∈ otherNames, ProperName name)
    (found : Path.below? (Path.join project ("/".intercalate names)) root = some within)
    (otherFound : Path.below? (Path.join project ("/".intercalate otherNames)) root =
      some otherWithin)
    (same : place directory (Path.join out within) =
      place directory (Path.join out otherWithin)) : names = otherNames := by
  obtain ⟨base, front, _, outputs⟩ := exists_output_base directory out named rooted
  obtain ⟨back, rfl, placed⟩ := outputs nonempty proper found
  obtain ⟨otherBack, rfl, otherPlaced⟩ := outputs otherNonempty otherProper otherFound
  rw [placed, otherPlaced, List.append_cancel_left_eq] at same
  rw [same]

/-- The output of a file keeps the file's name, unless the root is the file itself. -/
theorem getLast?_place_output (directory : Location) (out : String) (named : project ≠ "")
    (rooted : root ≠ "") (nonempty : names ≠ []) (proper : ∀ name ∈ names, ProperName name)
    (found : Path.below? (Path.join project ("/".intercalate names)) root = some within) :
    place directory (Path.join out within) = place directory out ∨
      (place directory (Path.join out within)).getLast? = names.getLast? := by
  obtain ⟨base, front, origin, outputs⟩ := exists_output_base directory out named rooted
  obtain ⟨back, rfl, placed⟩ := outputs nonempty proper found
  rw [placed]
  by_cases empty : back = []
  · rcases origin with rfl | rfl
    · exact absurd empty (by simpa using nonempty)
    · exact Or.inl (by simp [empty])
  · rw [List.getLast?_append_of_ne_nil _ empty, List.getLast?_append_of_ne_nil _ empty]
    exact Or.inr rfl

end Outputs

/-! ## Inside a directory -/

/-- Whether a place lies inside another, not at it. -/
def isInside (location other : Location) : Bool :=
  location.isPrefixOf other && other ≠ location

theorem isInside_iff {location other : Location} :
    isInside location other = true ↔ ∃ below, below ≠ [] ∧ other = location ++ below := by
  rw [isInside, Bool.and_eq_true, List.isPrefixOf_iff_prefix, decide_eq_true_eq]
  constructor
  · rintro ⟨⟨below, rfl⟩, differs⟩
    exact ⟨below, by simpa using differs, rfl⟩
  · rintro ⟨below, nonempty, rfl⟩
    exact ⟨⟨below, rfl⟩, by simpa using nonempty⟩

/-- A place above one that lies outside lies outside as well. -/
theorem isInside_front {location front back : Location}
    (outside : isInside location (front ++ back) = false) : isInside location front = false := by
  rw [Bool.eq_false_iff] at outside ⊢
  intro inside
  obtain ⟨below, nonempty, rfl⟩ := isInside_iff.mp inside
  exact outside (isInside_iff.mpr ⟨below ++ back, by simp [nonempty], by simp⟩)

end SourceQuote.FileSystem

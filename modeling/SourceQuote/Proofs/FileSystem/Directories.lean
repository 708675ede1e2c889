import SourceQuote.Proofs.Path.Parent
import SourceQuote.Proofs.Scan.Enumeration

/-!
Contract: what creating a directory does to each place.

Owns: the places that creating a directory passes, which of them become directories, and that
whether it succeeds depends only on the files in the way. Also: once the directories above a path
are made, no further directory makes the path lead anywhere else.

So creating two directories comes to the same in either order, and neither minds a file that is
written outside of the places it passes.
-/

namespace SourceQuote.FileSystem

open SourceQuote.Text
open SourceQuote.Path (Component)

/-! ## Places on the way -/

/-- The places that pieces of a path name on their way from a place. -/
def stationsFrom (location : Location) : List (List Char) → List Location
  | [] => []
  | piece :: rest =>
      if staysPut piece ∨ piece = ['.', '.'] then stationsFrom (step location piece) rest
      else step location piece :: stationsFrom (step location piece) rest

/-- The places that creating a directory at a path passes. -/
def stations (directory : Location) (path : String) : List Location :=
  stationsFrom (origin directory path).1 (origin directory path).2

theorem isNone_ofPiece (piece : List Char) : (Component.ofPiece piece).isNone = staysPut piece := by
  unfold Component.ofPiece staysPut
  by_cases stays : piece = [] ∨ piece = ['.']
  · simp [stays]
  · have moves := not_or.mp stays
    by_cases up : piece = ['.', '.'] <;> simp [moves, up]

theorem stationsFrom_name {location : Location} {piece : List Char}
    (moves : ¬ staysPut piece = true) (notUp : ¬ piece = ['.', '.']) (rest : List (List Char)) :
    stationsFrom location (piece :: rest) = (location ++ [String.ofList piece]) ::
      stationsFrom (location ++ [String.ofList piece]) rest := by
  rw [stationsFrom, if_neg (not_or.mpr ⟨moves, notUp⟩), step, if_neg moves, if_neg notUp]

theorem stationsFrom_of_ofPiece {location : Location} {piece : List Char} {name : String}
    (isName : Component.ofPiece piece = some (.normal name)) (rest : List (List Char)) :
    stationsFrom location (piece :: rest) =
      (location ++ [name]) :: stationsFrom (location ++ [name]) rest := by
  have moves : ¬ staysPut piece = true := by simp [← isNone_ofPiece, isName]
  unfold Component.ofPiece at isName
  split at isName
  · cases isName
  · split at isName
    · cases isName
    · next notUp =>
        cases isName
        exact stationsFrom_name moves notUp rest

theorem stationsFrom_append (location : Location) (front back : List (List Char)) :
    stationsFrom location (front ++ back) =
      stationsFrom location front ++ stationsFrom (front.foldl step location) back := by
  induction front generalizing location with
  | nil => rfl
  | cons piece rest inductionHypothesis =>
      rw [List.cons_append, stationsFrom, stationsFrom, List.foldl_cons, inductionHypothesis]
      split <;> rfl

theorem stationsFrom_of_stays {location : Location} {parts : List (List Char)}
    (stays : ∀ piece ∈ parts, staysPut piece = true) : stationsFrom location parts = [] := by
  induction parts generalizing location with
  | nil => rfl
  | cons piece rest inductionHypothesis =>
      rw [stationsFrom, if_pos (Or.inl (stays piece List.mem_cons_self))]
      exact inductionHypothesis fun other member => stays other (List.mem_cons_of_mem _ member)

/-- The places on the way of names, among pieces that stay, are those that a part of the names
leads to. -/
theorem exists_of_mem_stationsFrom {location station : Location} {parts : List (List Char)}
    {names : List String} (named : parts.filterMap Component.ofPiece = names.map Component.normal)
    (member : station ∈ stationsFrom location parts) :
    ∃ front back, names = front ++ back ∧ station = location ++ front := by
  induction parts generalizing location names with
  | nil => cases member
  | cons piece rest inductionHypothesis =>
      cases isComponent : Component.ofPiece piece with
      | none =>
          have stays : staysPut piece = true := by
            rw [← isNone_ofPiece, isComponent]
            rfl
          rw [List.filterMap_cons_none isComponent] at named
          rw [stationsFrom, if_pos (Or.inl stays), step, if_pos stays] at member
          exact inductionHypothesis named member
      | some component =>
          rw [List.filterMap_cons_some isComponent] at named
          cases names with
          | nil => cases named
          | cons name names =>
              obtain ⟨rfl, restNamed⟩ := List.cons_eq_cons.mp named
              rw [stationsFrom_of_ofPiece isComponent] at member
              rcases List.mem_cons.mp member with rfl | later
              · exact ⟨[name], names, rfl, rfl⟩
              · obtain ⟨front, back, rfl, rfl⟩ := inductionHypothesis restNamed later
                exact ⟨name :: front, back, rfl, by simp⟩

/-- The places that creating the directory above a path passes: those before the last piece that
moves. -/
theorem stations_parent (directory : Location) {path : String} {front still : List (List Char)}
    {piece : List Char} (cut : pieces '/' path.toList = front ++ piece :: still)
    (moves : staysPut piece = false) (stays : ∀ other ∈ still, staysPut other = true) :
    stations directory (Path.parent path) = stationsFrom (origin directory path).1 front := by
  simp only [← isNone_ofPiece] at moves stays
  obtain ⟨absolute, kept, gone, extra, rfl, above, goneStay, extraStay⟩ :=
    Path.pieces_parent cut moves stays
  have start : (origin directory (Path.parent path)).1 = (origin directory path).1 := by
    rw [origin, origin, absolute]
    split <;> rfl
  simp only [isNone_ofPiece] at goneStay extraStay
  rw [stations, origin_parts, start, above, stationsFrom_append, stationsFrom_append,
    stationsFrom_of_stays goneStay, stationsFrom_of_stays extraStay]

theorem exists_last_of_filterMap {α β : Type} {select : α → Option β} {items : List α}
    {front : List β} {last : β} (selected : items.filterMap select = front ++ [last]) :
    ∃ before item after, items = before ++ item :: after ∧
      before.filterMap select = front ∧ select item = some last ∧
      ∀ other ∈ after, select other = none := by
  obtain ⟨before, rest, rfl, isFront, isLast⟩ := List.filterMap_eq_append_iff.mp selected
  obtain ⟨skipped, item, after, rfl, none, isItem, nothing⟩ := List.filterMap_eq_cons_iff.mp isLast
  refine ⟨before ++ skipped, item, after, by simp, ?_, isItem, ?_⟩
  · rw [List.filterMap_append, isFront, List.filterMap_eq_nil_iff.mpr none, List.append_nil]
  · exact List.filterMap_eq_nil_iff.mp nothing

theorem stationsFrom_join {directory : Location} {base : String} {front : List (List Char)}
    (cut : pieces '/' base.toList = front ∨ pieces '/' base.toList = front ++ [[]]) :
    stationsFrom (origin directory base).1 front = stations directory base ∧
      front.foldl step (origin directory base).1 = place directory base := by
  rw [stations, place, origin_parts]
  rcases cut with cut | cut
  · rw [cut]
    exact ⟨rfl, rfl⟩
  · rw [cut, stationsFrom_append, List.foldl_append]
    exact ⟨(List.append_nil _).symm, rfl⟩

/-- The places on the way to the directory above a path below a base: those on the way to the
base, and those on the way of the names that follow it, but for the last. -/
theorem exists_stations_parent (directory : Location) {base path : String}
    (relative : Path.isAbsolute path = false) (nonempty : base ≠ "") {front : List String}
    {last : String}
    (named : (pieces '/' path.toList).filterMap Component.ofPiece =
      (front ++ [last]).map Component.normal) :
    ∃ between : List (List Char), between.filterMap Component.ofPiece = front.map Component.normal ∧
      stations directory (Path.parent (Path.join base path)) =
        stations directory base ++ stationsFrom (place directory base) between := by
  rw [List.map_append] at named
  obtain ⟨between, piece, still, cut, isFront, isLast, stays⟩ := exists_last_of_filterMap named
  obtain ⟨baseParts, _, baseCut, joined⟩ := Path.pieces_join relative nonempty
  obtain ⟨sameStations, samePlace⟩ := @stationsFrom_join directory _ _ baseCut
  refine ⟨between, isFront, ?_⟩
  rw [cut, ← List.append_assoc] at joined
  rw [stations_parent directory joined, origin_start_join relative nonempty, stationsFrom_append,
    sameStations, samePlace]
  · rw [← isNone_ofPiece, isLast]
    rfl
  · intro other member
    rw [← isNone_ofPiece, stays other member]
    rfl

/-! ## Creating directories -/

/-- Whether a directory can be made at a place, or stands there: its name is short enough, and it
is no file. -/
def admits (fs : FileSystem) (location : Location) : Bool :=
  location.getLast?.all (fun name => name.utf8ByteSize ≤ nameLimit) &&
    (fs.content? location).isNone

theorem admits_congr {fs other : FileSystem} {location : Location}
    (same : fs.content? location = other.content? location) :
    fs.admits location = other.admits location := by
  rw [admits, admits, same]

theorem admits_step {location : Location} {piece : List Char} (fs : FileSystem) :
    fs.admits (location ++ [String.ofList piece]) =
      (fitsName piece && (fs.content? (location ++ [String.ofList piece])).isNone) := by
  rw [admits, List.getLast?_concat]
  rfl

/-- What making directories along a path comes to: the places on the way become directories up to
the first that cannot. -/
theorem makeDirectories_eq (fs : FileSystem) (location : Location) (parts : List (List Char)) :
    (fs.makeDirectories location parts).succeeded =
        (stationsFrom location parts).all fs.admits ∧
      ∀ other, entry? (fs.makeDirectories location parts).fs other =
        if other ∈ (stationsFrom location parts).takeWhile fs.admits then some .directory
        else fs.entry? other := by
  fun_induction makeDirectories fs location parts with
  | case1 fs => simp [stationsFrom]
  | case2 fs location piece rest stays inductionHypothesis =>
      rw [stationsFrom, if_pos (Or.inl stays), step, if_pos stays]
      exact inductionHypothesis
  | case3 fs location rest stays inductionHypothesis =>
      rw [stationsFrom, if_pos (Or.inr rfl), step, if_neg stays, if_pos rfl]
      exact inductionHypothesis
  | case4 fs location piece rest moves notUp fits next stands inductionHypothesis =>
      have admitted : fs.admits next = true := by simp [next, admits_step, fits, content?, stands]
      have way : stationsFrom location (piece :: rest) = next :: stationsFrom next rest :=
        stationsFrom_name moves notUp rest
      rw [way, List.all_cons, List.takeWhile_cons_of_pos admitted]
      refine ⟨by rw [admitted, inductionHypothesis.1, Bool.true_and], fun other => ?_⟩
      rw [inductionHypothesis.2 other]
      by_cases here : other = next
      · simp [here, stands]
      · simp [here]
  | case5 fs location piece rest moves notUp fits next content stands =>
      have refused : fs.admits next = false := by simp [next, admits_step, content?, stands]
      rw [stationsFrom_name moves notUp, List.all_cons,
        List.takeWhile_cons_of_neg (by simp [next, refused]), refused]
      exact ⟨rfl, fun other => by simp⟩
  | case6 fs location piece rest moves notUp fits next free inductionHypothesis =>
      have admitted : fs.admits next = true := by simp [next, admits_step, fits, content?, free]
      have same : (fs.put next .directory).admits = fs.admits :=
        funext fun other => admits_congr
          ((keeps_put_directory (by simp [next]) free).contents other (Set.notMem_empty _))
      rw [same] at inductionHypothesis
      have way : stationsFrom location (piece :: rest) = next :: stationsFrom next rest :=
        stationsFrom_name moves notUp rest
      rw [way, List.all_cons, List.takeWhile_cons_of_pos admitted]
      refine ⟨by rw [admitted, inductionHypothesis.1, Bool.true_and], fun other => ?_⟩
      rw [inductionHypothesis.2 other, entryAt_put fs (by simp [next])]
      by_cases here : other = next
      · simp [here]
      · simp [here]
  | case7 fs location piece rest moves notUp unfit =>
      have refused : fs.admits (location ++ [String.ofList piece]) = false := by
        simp [admits_step, unfit]
      rw [stationsFrom_name moves notUp, List.all_cons,
        List.takeWhile_cons_of_neg (by simp [refused]), refused]
      exact ⟨rfl, fun other => by simp⟩

section Creating

variable {fs other : FileSystem} {directory : Location} {path : String}

/-- The places that creating a directory at a path makes directories, or finds to be. -/
def made (fs : FileSystem) (directory : Location) (path : String) : List Location :=
  if isAcceptable path then (stations directory path).takeWhile fs.admits else []

theorem succeeded_createDirectory (fs : FileSystem) (directory : Location) (path : String) :
    (fs.createDirectory directory path).succeeded =
      (isAcceptable path && (stations directory path).all fs.admits) := by
  unfold createDirectory
  split
  · next acceptable =>
      rw [acceptable, Bool.true_and]
      exact (makeDirectories_eq fs _ _).1
  · next refused => simp [refused]

theorem entryAt_createDirectory (fs : FileSystem) (directory : Location) (path : String)
    (location : Location) :
    entry? (fs.createDirectory directory path).fs location =
      if location ∈ fs.made directory path then some .directory else fs.entry? location := by
  unfold createDirectory made
  split
  · exact (makeDirectories_eq fs _ _).2 location
  · simp

theorem mem_stations_of_mem_made {location : Location}
    (member : location ∈ fs.made directory path) : location ∈ stations directory path := by
  unfold made at member
  split at member
  · exact (List.takeWhile_sublist _).mem member
  · cases member

theorem takeWhile_congr {α : Type} {keep other : α → Bool} {items : List α}
    (same : ∀ item ∈ items, keep item = other item) :
    items.takeWhile keep = items.takeWhile other := by
  induction items with
  | nil => rfl
  | cons item rest inductionHypothesis =>
      rw [List.takeWhile_cons, List.takeWhile_cons, same item List.mem_cons_self,
        inductionHypothesis fun later member => same later (List.mem_cons_of_mem _ member)]

/-- Only files that stand in the way change what creating a directory comes to. -/
theorem createDirectory_congr
    (same : ∀ location ∈ stations directory path,
      fs.content? location = other.content? location) :
    fs.made directory path = other.made directory path ∧
      (fs.createDirectory directory path).succeeded =
        (other.createDirectory directory path).succeeded := by
  have sameAdmits : ∀ location ∈ stations directory path,
      fs.admits location = other.admits location :=
    fun location member => admits_congr (same location member)
  constructor
  · rw [made, made, takeWhile_congr sameAdmits]
  · have sameAll : (stations directory path).all fs.admits =
        (stations directory path).all other.admits := by
      rw [Bool.eq_iff_iff, List.all_eq_true, List.all_eq_true]
      exact forall₂_congr fun location member => by rw [sameAdmits location member]
    rw [succeeded_createDirectory, succeeded_createDirectory, sameAll]

theorem isDirectory_of_created
    (succeeded : (fs.createDirectory directory path).succeeded = true) {location : Location}
    (member : location ∈ stations directory path) :
    isDirectory (fs.createDirectory directory path).fs location = true := by
  rw [succeeded_createDirectory, Bool.and_eq_true, List.all_eq_true] at succeeded
  rw [isDirectory_eq_true_iff, entryAt_createDirectory, made, if_pos succeeded.1,
    List.takeWhile_eq_self_iff.mpr succeeded.2, if_pos member]

theorem save_of_unmade {content : ByteArray}
    (failed : (fs.createDirectory directory (Path.parent path)).succeeded = false) :
    fs.save directory path content = fs.createDirectory directory (Path.parent path) := by
  simp only [save, failed, Bool.false_eq_true, if_false]

theorem save_of_made {content : ByteArray}
    (made : (fs.createDirectory directory (Path.parent path)).succeeded = true) :
    fs.save directory path content =
      match write? (fs.createDirectory directory (Path.parent path)).fs directory path content with
      | some written => ⟨written, true⟩
      | none => ⟨(fs.createDirectory directory (Path.parent path)).fs, false⟩ := by
  rw [save, made]
  rfl

theorem write?_of_resolve? {content : ByteArray}
    (resolved : fs.resolve? directory path = some (place directory path))
    (free : fs.isDirectory (place directory path) = false) :
    fs.write? directory path content =
      some (fs.put (place directory path) (.file content)) := by
  rw [write?, resolved, Option.bind_some, free]
  rfl

end Creating

/-! ## Paths whose directories are made -/

theorem isDirectory_of_follow_cons {fs : FileSystem} {location reached : Location}
    {piece : List Char} {rest : List (List Char)}
    (followed : fs.follow location (piece :: rest) = some reached) :
    fs.isDirectory location = true := by
  rw [follow_cons] at followed
  split at followed
  · assumption
  · cases followed

theorem resolve?_eq_some_iff {fs : FileSystem} {directory reached : Location} {path : String} :
    fs.resolve? directory path = some reached ↔
      (isAcceptable path = true ∧ isAdmissible path = true) ∧
        fs.follow (origin directory path).1 (origin directory path).2 = some reached := by
  unfold resolve? destination?
  constructor
  · intro resolved
    split at resolved
    · next acceptable =>
        split at resolved
        · next admissible => exact ⟨⟨acceptable, admissible⟩, resolved⟩
        · cases resolved
    · cases resolved
  · rintro ⟨⟨acceptable, admissible⟩, followed⟩
    rw [if_pos acceptable, if_pos admissible]
    exact followed

/-- Whether a place and everything above it are directories. -/
def Grounded (fs : FileSystem) (location : Location) : Prop :=
  ∀ front back, location = front ++ back → fs.isDirectory front = true

theorem WellFormed.grounded {fs : FileSystem} (wellFormed : fs.WellFormed) {location : Location}
    (isDirectory : fs.isDirectory location = true) : fs.Grounded location := by
  rintro front back rfl
  by_cases whole : back = []
  · simpa [whole] using isDirectory
  · exact wellFormed.isDirectory_front (isDirectory_eq_true_iff.mp isDirectory) whole

theorem Grounded.mono {fs later : FileSystem} {location : Location}
    (grounded : fs.Grounded location)
    (kept : ∀ location, fs.isDirectory location = true → later.isDirectory location = true) :
    later.Grounded location :=
  fun front back split => kept front (grounded front back split)

theorem Grounded.isDirectory {fs : FileSystem} {location : Location}
    (grounded : fs.Grounded location) : fs.isDirectory location = true :=
  grounded location [] (by simp)

theorem Grounded.dropLast {fs : FileSystem} {location : Location}
    (grounded : fs.Grounded location) : fs.Grounded location.dropLast := by
  intro front back split
  obtain ⟨last, whole⟩ := location.dropLast_prefix
  exact grounded front (back ++ last) (by rw [← List.append_assoc, ← split, whole])

theorem Grounded.concat {fs : FileSystem} {location : Location} {name : String}
    (grounded : fs.Grounded location) (isDirectory : fs.isDirectory (location ++ [name]) = true) :
    fs.Grounded (location ++ [name]) := by
  intro front back split
  rcases List.prefix_concat_iff.mp ⟨back, split.symm⟩ with rfl | ⟨rest, rfl⟩
  · exact isDirectory
  · exact grounded front rest rfl

theorem follow_of_stations {fs : FileSystem} {location : Location} {parts : List (List Char)}
    (grounded : fs.Grounded location)
    (made : ∀ station ∈ stationsFrom location parts, fs.isDirectory station = true) :
    fs.follow location parts = some (parts.foldl step location) ∧
      fs.Grounded (parts.foldl step location) := by
  induction parts generalizing location with
  | nil => exact ⟨rfl, grounded⟩
  | cons piece rest inductionHypothesis =>
      rw [follow_cons, if_pos grounded.isDirectory, List.foldl_cons]
      by_cases stays : staysPut piece = true
      · rw [stationsFrom, if_pos (Or.inl stays)] at made
        refine inductionHypothesis ?_ made
        rwa [step, if_pos stays]
      · by_cases up : piece = ['.', '.']
        · rw [stationsFrom, if_pos (Or.inr up)] at made
          refine inductionHypothesis ?_ made
          rw [step, if_neg stays, if_pos up]
          exact grounded.dropLast
        · rw [stationsFrom_name stays up] at made
          rw [step, if_neg stays, if_neg up]
          exact inductionHypothesis (grounded.concat (made _ List.mem_cons_self))
            fun station member => made station (List.mem_cons_of_mem _ member)

/-- Once the directories above a path are made, a path that leads to something other than a
directory later on leads there already. -/
theorem resolve?_of_above {fs later : FileSystem} {directory reached : Location} {path : String}
    (grounded : fs.Grounded (origin directory path).1)
    (above : ∀ station ∈ stations directory (Path.parent path), fs.isDirectory station = true)
    (resolved : later.resolve? directory path = some reached)
    (free : later.isDirectory reached = false) : fs.resolve? directory path = some reached := by
  obtain ⟨accepted, followed⟩ := resolve?_eq_some_iff.mp resolved
  refine resolve?_eq_some_iff.mpr ⟨accepted, ?_⟩
  have named := eq_of_follow followed
  obtain ⟨front, last, cut⟩ :=
    (List.eq_nil_or_concat (pieces '/' path.toList)).resolve_left (pieces_ne_nil _ _)
  rw [List.concat_eq_append] at cut
  rw [origin_parts, cut] at followed named ⊢
  rw [follow_append] at followed ⊢
  obtain ⟨between, _, lastStep⟩ := Option.bind_eq_some_iff.mp followed
  by_cases stays : staysPut last = true
  · -- A path that ends in a slash leads to directories only.
    have isDirectory := isDirectory_of_follow_cons lastStep
    rw [follow_cons, if_pos isDirectory, step, if_pos stays] at lastStep
    rw [← Option.some.inj lastStep, isDirectory] at free
    cases free
  · rw [stations_parent directory cut (by simpa using stays) (by simp)] at above
    obtain ⟨leads, ends⟩ := follow_of_stations grounded above
    rw [leads, Option.bind_some, follow_cons, if_pos ends.isDirectory, named, List.foldl_append]
    rfl

/-! ## Paths that were followed -/

/-- Where a path was followed to a directory, everything on the way is a directory. -/
theorem isDirectory_of_follow {fs : FileSystem} {location reached : Location}
    {parts : List (List Char)} (followed : fs.follow location parts = some reached)
    (isDirectory : fs.isDirectory reached = true) :
    ∀ station ∈ stationsFrom location parts, fs.isDirectory station = true := by
  induction parts generalizing location with
  | nil => nofun
  | cons piece rest inductionHypothesis =>
      rw [follow_cons] at followed
      split at followed
      · have later := inductionHypothesis followed
        have next : fs.isDirectory (step location piece) = true := by
          cases rest with
          | nil =>
              cases followed
              exact isDirectory
          | cons other rest => exact isDirectory_of_follow_cons followed
        rw [stationsFrom]
        split
        · exact later
        · simpa [next] using later
      · cases followed

/-- A file that is read below a base was reached through directories. -/
theorem isDirectory_of_read?_join {fs : FileSystem} {directory : Location} {base path : String}
    {content : ByteArray} (relative : Path.isAbsolute path = false) (nonempty : base ≠ "")
    (read : fs.read? directory (Path.join base path) = some content) :
    fs.isDirectory (place directory base) = true ∧
      ∀ station ∈ stations directory base, fs.isDirectory station = true := by
  obtain ⟨reached, resolved, _⟩ := Option.bind_eq_some_iff.mp read
  have followed := (resolve?_eq_some_iff.mp resolved).2
  obtain ⟨front, _, cut, joined⟩ := Path.pieces_join relative nonempty
  obtain ⟨sameStations, samePlace⟩ := @stationsFrom_join directory _ _ cut
  rw [origin_parts, origin_start_join relative nonempty, joined, follow_append] at followed
  obtain ⟨between, toBase, fromBase⟩ := Option.bind_eq_some_iff.mp followed
  obtain ⟨first, rest, pathCut⟩ := List.exists_cons_of_ne_nil (pieces_ne_nil '/' path.toList)
  rw [pathCut] at fromBase
  have here := isDirectory_of_follow_cons fromBase
  have onWay := isDirectory_of_follow toBase here
  rw [eq_of_follow toBase, samePlace] at here
  rw [sameStations] at onWay
  exact ⟨here, onWay⟩

end SourceQuote.FileSystem

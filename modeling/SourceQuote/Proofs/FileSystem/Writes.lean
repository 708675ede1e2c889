import SourceQuote.Proofs.FileSystem.Places
import Mathlib.Data.Set.Insert

/-!
Contract: what writing a file does and what it leaves alone.

Owns: the relation between a file system and the same one after some writes, that saving a file
keeps everything but its own place, and that a saved file is read back.

Writing never removes a directory and never makes a file a directory. So a path that led
somewhere still does, and only the bytes at a written place can differ.
-/

namespace SourceQuote.FileSystem

/-- What writes to some places keep: the directories, and the files at all other places. -/
structure Keeps (touched : Set Location) (before after : FileSystem) : Prop where
  directories : ∀ location, before.isDirectory location = true →
    after.isDirectory location = true
  contents : ∀ location, location ∉ touched →
    after.content? location = before.content? location

namespace Keeps

variable {touched larger : Set Location} {before between after : FileSystem}
  {directory : Location} {path : String} {content : ByteArray}

theorem refl (touched : Set Location) (fs : FileSystem) : Keeps touched fs fs :=
  ⟨fun _ isDirectory => isDirectory, fun _ _ => rfl⟩

theorem trans (first : Keeps touched before between) (second : Keeps touched between after) :
    Keeps touched before after where
  directories location isDirectory :=
    second.directories location (first.directories location isDirectory)
  contents location outside := by
    rw [second.contents location outside, first.contents location outside]

theorem mono (keeps : Keeps touched before after) (included : touched ⊆ larger) :
    Keeps larger before after :=
  ⟨keeps.directories, fun location outside =>
    keeps.contents location fun inside => outside (included inside)⟩

theorem read? (keeps : Keeps touched before after) (outside : place directory path ∉ touched)
    (read : before.read? directory path = some content) :
    after.read? directory path = some content := by
  obtain ⟨reached, found, stands⟩ := Option.bind_eq_some_iff.mp read
  have sameWay := resolve?_mono keeps.directories found
  rw [FileSystem.read?, sameWay, Option.bind_some]
  rw [eq_place_of_resolve? found] at stands ⊢
  rw [keeps.contents _ outside, stands]

theorem content?_of_read? (keeps : Keeps touched before after)
    (outside : place directory path ∉ touched)
    (read : after.read? directory path = some content) :
    before.content? (place directory path) = some content := by
  rw [← keeps.contents _ outside]
  exact FileSystem.content?_of_read? read

end Keeps

/-! ## Single writes -/

theorem entryAt_put (fs : FileSystem) {location : Location} (below : location ≠ [])
    (entry : Entry) (other : Location) :
    entry? (fs.put location entry) other =
      if other = location then some entry else fs.entry? other := by
  unfold entry? put
  by_cases top : other = []
  · subst top
    rw [if_pos rfl, if_neg below.symm, if_pos rfl]
  · rw [if_neg top, if_neg top, Std.ExtTreeMap.getElem?_insert]
    by_cases same : other = location
    · simp [same]
    · have differs : compare location other ≠ .eq := by
        intro equal
        exact same (Std.LawfulEqOrd.eq_of_compare equal).symm
      rw [if_neg differs, if_neg same]

theorem isDirectory_eq_true_iff {fs : FileSystem} {location : Location} :
    fs.isDirectory location = true ↔ fs.entry? location = some .directory := by
  unfold isDirectory
  split
  · next stands => simp [stands]
  · next other => simpa using other

theorem content?_eq_some_iff {fs : FileSystem} {location : Location} {content : ByteArray} :
    fs.content? location = some content ↔ fs.entry? location = some (.file content) := by
  unfold content?
  split
  · next stands => simp [stands]
  · next other =>
      simp only [reduceCtorEq, false_iff]
      exact other content

theorem isDirectory_top (fs : FileSystem) : fs.isDirectory [] = true :=
  rfl

theorem keeps_put_directory {fs : FileSystem} {location : Location} (below : location ≠ [])
    (free : fs.entry? location = none) : Keeps ∅ fs (fs.put location .directory) where
  directories other isDirectory := by
    rw [isDirectory_eq_true_iff] at isDirectory ⊢
    rw [entryAt_put fs below, isDirectory]
    simp
  contents other _ := by
    unfold content?
    rw [entryAt_put fs below]
    by_cases same : other = location
    · simp [same, free]
    · rw [if_neg same]

theorem keeps_put_file {fs : FileSystem} {location : Location}
    (free : fs.isDirectory location = false) (content : ByteArray) :
    Keeps {location} fs (fs.put location (.file content)) := by
  have below : location ≠ [] := by
    rintro rfl
    cases free
  constructor
  · intro other isDirectory
    have differs : other ≠ location := by
      rintro rfl
      rw [free] at isDirectory
      cases isDirectory
    rw [isDirectory_eq_true_iff] at isDirectory ⊢
    rw [entryAt_put fs below, if_neg differs, isDirectory]
  · intro other outside
    have differs : other ≠ location := outside
    unfold content?
    rw [entryAt_put fs below, if_neg differs]

theorem content?_put_file {fs : FileSystem} {location : Location}
    (free : fs.isDirectory location = false) (content : ByteArray) :
    (fs.put location (.file content)).content? location = some content := by
  have below : location ≠ [] := by
    rintro rfl
    cases free
  rw [content?_eq_some_iff, entryAt_put fs below, if_pos rfl]

/-! ## Saving -/

theorem keeps_makeDirectories (fs : FileSystem) (location : Location)
    (parts : List (List Char)) : Keeps ∅ fs (fs.makeDirectories location parts).fs := by
  fun_induction makeDirectories fs location parts with
  | case1 fs => exact .refl _ _
  | case2 fs location piece rest stays inductionHypothesis => exact inductionHypothesis
  | case3 fs location rest _ inductionHypothesis => exact inductionHypothesis
  | case4 fs location piece rest _ _ fits next stands inductionHypothesis =>
      exact inductionHypothesis
  | case5 => exact .refl _ _
  | case6 fs location piece rest _ _ fits next free inductionHypothesis =>
      exact (keeps_put_directory (by simp [next]) free).trans inductionHypothesis
  | case7 => exact .refl _ _

theorem keeps_createDirectory (fs : FileSystem) (directory : Location) (path : String) :
    Keeps ∅ fs (fs.createDirectory directory path).fs := by
  unfold createDirectory
  split
  · exact keeps_makeDirectories _ _ _
  · exact .refl _ _

theorem write?_eq_some {fs written : FileSystem} {directory : Location} {path : String}
    {content : ByteArray} (wrote : fs.write? directory path content = some written) :
    fs.resolve? directory path = some (place directory path) ∧
      fs.isDirectory (place directory path) = false ∧
      written = fs.put (place directory path) (.file content) := by
  obtain ⟨reached, found, put⟩ := Option.bind_eq_some_iff.mp wrote
  have named := eq_place_of_resolve? found
  subst named
  split at put
  · cases put
  · next free =>
      cases put
      exact ⟨found, by simpa using free, rfl⟩

/-- What an attempt to save a file comes to: the directories above it were made, and then the
file was put in its place or nothing else happened. -/
theorem save_cases (fs : FileSystem) (directory : Location) (path : String)
    (content : ByteArray) :
    ∃ above, Keeps ∅ fs above ∧
      ((fs.save directory path content = ⟨above.put (place directory path) (.file content), true⟩ ∧
          above.resolve? directory path = some (place directory path) ∧
          above.isDirectory (place directory path) = false) ∨
        fs.save directory path content = ⟨above, false⟩) := by
  have kept := keeps_createDirectory fs directory (Path.parent path)
  unfold save
  dsimp only
  generalize fs.createDirectory directory (Path.parent path) = attempt at kept ⊢
  obtain ⟨above, made⟩ := attempt
  refine ⟨above, kept, ?_⟩
  cases made with
  | false => exact Or.inr rfl
  | true =>
      dsimp only
      rw [if_pos rfl]
      cases wrote : above.write? directory path content with
      | none => exact Or.inr rfl
      | some written =>
          obtain ⟨found, free, rfl⟩ := write?_eq_some wrote
          exact Or.inl ⟨rfl, found, free⟩

theorem keeps_save (fs : FileSystem) (directory : Location) (path : String)
    (content : ByteArray) :
    Keeps {place directory path} fs (fs.save directory path content).fs := by
  obtain ⟨above, made, cases⟩ := save_cases fs directory path content
  have kept := made.mono (Set.empty_subset {place directory path})
  rcases cases with ⟨saved, _, free⟩ | saved
  · rw [saved]
    exact kept.trans (keeps_put_file free content)
  · rw [saved]
    exact kept

/-- A file that was saved is read back. -/
theorem read?_save {fs : FileSystem} {directory : Location} {path : String}
    {content : ByteArray} (succeeded : (fs.save directory path content).succeeded = true) :
    (fs.save directory path content).fs.read? directory path = some content := by
  obtain ⟨above, _, ⟨saved, found, free⟩ | saved⟩ := save_cases fs directory path content
  · have sameWay := resolve?_mono (keeps_put_file free content).directories found
    rw [saved, read?, sameWay, Option.bind_some, content?_put_file free]
  · rw [saved] at succeeded
    cases succeeded

/-- Saving what a file holds already changes nothing about it. -/
theorem read?_save_same {fs : FileSystem} {directory : Location} {path : String}
    {content : ByteArray} (read : fs.read? directory path = some content) :
    (fs.save directory path content).fs.read? directory path = some content := by
  cases succeeded : (fs.save directory path content).succeeded with
  | true => exact read?_save succeeded
  | false =>
      obtain ⟨above, made, ⟨saved, _⟩ | saved⟩ := save_cases fs directory path content
      · rw [saved] at succeeded
        cases succeeded
      · rw [saved]
        exact made.read? (Set.notMem_empty _) read

/-- What stands at the place of a file that was being saved: the new bytes, or what stood there
if the file could not be written. -/
theorem content?_save (fs : FileSystem) (directory : Location) (path : String)
    (content : ByteArray) :
    (fs.save directory path content).fs.content? (place directory path) =
      if (fs.save directory path content).succeeded then some content
      else fs.content? (place directory path) := by
  obtain ⟨above, made, ⟨saved, _, free⟩ | saved⟩ := save_cases fs directory path content
  · rw [saved, content?_put_file free, if_pos rfl]
  · rw [saved, made.contents _ (Set.notMem_empty _)]
    rfl

/-! ## Paths that are followed to their places -/

/-- Whether everything on the way of a path is a directory. -/
def Reaches (fs : FileSystem) (directory : Location) (path : String) : Prop :=
  fs.follow (origin directory path).1 (origin directory path).2 = some (place directory path)

theorem Reaches.mono {before after : FileSystem} {directory : Location} {path : String}
    (reaches : before.Reaches directory path)
    (kept : ∀ location, before.isDirectory location = true →
      after.isDirectory location = true) : after.Reaches directory path :=
  follow_mono kept reaches

theorem Reaches.read?_eq {fs : FileSystem} {directory : Location} {path : String}
    (reaches : fs.Reaches directory path) :
    fs.read? directory path =
      if isAcceptable path && isAdmissible path then fs.content? (place directory path)
      else none := by
  rw [read?, resolve?, destination?]
  cases isAcceptable path
  · rfl
  · cases isAdmissible path
    · rfl
    · change (fs.follow (origin directory path).1 (origin directory path).2).bind _ = _
      rw [reaches]
      rfl

theorem reaches_join_names {fs : FileSystem} {directory : Location} {base : String}
    {names : List String} (nonempty : base ≠ "") (namesNonempty : names ≠ [])
    (proper : ∀ name ∈ names, Path.ProperName name) (reaches : fs.Reaches directory base)
    (above : ∀ front back, names = front ++ back → back ≠ [] →
      fs.isDirectory (place directory base ++ front) = true) :
    fs.Reaches directory (Path.join base ("/".intercalate names)) := by
  have relative := Path.isAbsolute_names proper
  obtain ⟨front, _, cut, joined⟩ := Path.pieces_join relative nonempty
  have reached : fs.follow (origin directory base).1 front = some (place directory base) := by
    rw [Reaches, origin_parts] at reaches
    rcases cut with cut | cut
    · rwa [cut] at reaches
    · rw [cut, follow_append] at reaches
      obtain ⟨reached, followed, stayed⟩ := Option.bind_eq_some_iff.mp reaches
      rw [followed, eq_of_follow stayed]
      rfl
  rw [Reaches, origin_parts, origin_start_join relative nonempty, joined,
    Path.pieces_names namesNonempty proper, follow_append, reached, Option.bind_some,
    follow_names proper above, place_join_names directory proper]

/-! ## Texts -/

theorem fromUTF8?_toByteArray (text : String) :
    String.fromUTF8? text.toByteArray = some text := by
  have valid : text.toByteArray.IsValidUTF8 := text.isValidUTF8
  rw [String.fromUTF8?, dif_pos valid]
  rfl

theorem toByteArray_of_fromUTF8? {content : ByteArray} {text : String}
    (isText : String.fromUTF8? content = some text) : content = text.toByteArray := by
  unfold String.fromUTF8? at isText
  split at isText
  · cases isText
    rfl
  · cases isText

theorem readText?_eq_some {fs : FileSystem} {directory : Location} {path text : String}
    (read : fs.read? directory path = some text.toByteArray) :
    fs.readText? directory path = some text := by
  rw [readText?, read, Option.bind_some, fromUTF8?_toByteArray]

end SourceQuote.FileSystem

namespace SourceQuote.Sample

def holding (files : List (String × String)) : FileSystem :=
  files.foldl (fun fs (path, text) => (fs.save [] path text.toByteArray).fs) .empty

end SourceQuote.Sample

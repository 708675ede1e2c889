import SourceQuote.Proofs.Path.Parent
import Mathlib.Logic.Relation

/-!
Contract: the module name of a path, whatever its spelling.

Owns: the ways to spell a path anew (`Respelling`), the stem of a file name as its dots tell it
(`IsStem`), the parts that a module name is made of, and the theorem that every respelling keeps the
module name, which consists of the names of the directory and the stem.

A path is cut twice on the way to its module name: once to find the file name, and again after the
file name has given way to its stem. Both times only the pieces that move count (`moves`), and no
respelling touches these.

Does not own: which file a path leads to.
-/

namespace SourceQuote.Path

open SourceQuote.Text

/-! ## Spellings and stems -/

/-- One path written in another way, at one place. -/
inductive Respelling : String → String → Prop
  | backslash (front back : String) : Respelling (front ++ "/" ++ back) (front ++ "\\" ++ back)
  | doubled (front back : String) : Respelling (front ++ "/" ++ back) (front ++ "//" ++ back)
  | dotted (front back : String) : Respelling (front ++ "/" ++ back) (front ++ "/./" ++ back)
  | prefixed (path : String) : Respelling path ("./" ++ path)
  | suffixed (path : String) (nonempty : path ≠ "") : Respelling path (path ++ "/")

/-- A text is the stem of a file name: what stands before the last dot, or the whole name if it has
no dot but perhaps one in front. -/
inductive IsStem (name : String) : String → Prop
  | ahead (stem extension : String) (cut : name = stem ++ "." ++ extension)
      (last : '.' ∉ extension.toList) (solid : stem ≠ "") : IsStem name stem
  | whole (dotless : '.' ∉ name.toList.tail) : IsStem name name

/-! ## The pieces that move -/

/-- What the pieces of a path stand for, apart from its start at the top or in place. -/
def moves (path : String) : List Component :=
  (pieces '/' path.toList).filterMap Component.ofPiece

theorem moves_empty : moves "" = [] := rfl

theorem moves_dot : moves "." = [] := rfl

theorem moves_append_slash (front back : String) :
    moves (front ++ "/" ++ back) = moves front ++ moves back := by
  have text : (front ++ "/" ++ back).toList = front.toList ++ '/' :: back.toList := by simp
  rw [moves, text, pieces_append_separator, List.filterMap_append, moves, moves]

theorem forwardSlashes_append (front back : String) :
    forwardSlashes (front ++ back) = forwardSlashes front ++ forwardSlashes back := by
  simp [forwardSlashes, replaceChar, String.ofList_append]

/-- No respelling changes what moves. -/
theorem Respelling.moves_eq {path other : String} (respelling : Respelling path other) :
    moves (forwardSlashes other) = moves (forwardSlashes path) := by
  have slash : forwardSlashes "/" = "/" := rfl
  cases respelling with
  | backslash front back =>
      have turned : forwardSlashes "\\" = "/" := rfl
      simp only [forwardSlashes_append, turned, slash]
  | doubled front back =>
      have twice : forwardSlashes "//" = "/" ++ "" ++ "/" := rfl
      simp only [forwardSlashes_append, twice, slash, ← String.append_assoc, moves_append_slash,
        moves_empty, List.append_nil]
  | dotted front back =>
      have between : forwardSlashes "/./" = "/" ++ "." ++ "/" := rfl
      simp only [forwardSlashes_append, between, slash, ← String.append_assoc, moves_append_slash,
        moves_dot, List.append_nil]
  | prefixed path =>
      have here : forwardSlashes "./" = "." ++ "/" := rfl
      rw [forwardSlashes_append, here, moves_append_slash, moves_dot, List.nil_append]
  | suffixed path nonempty =>
      have ends : forwardSlashes path ++ "/" = forwardSlashes path ++ "/" ++ "" := by simp
      rw [forwardSlashes_append, slash, ends, moves_append_slash, moves_empty, List.append_nil]

/-- The components of a path are what moves, behind at most a start that has no name. -/
theorem exists_components_eq (path : String) :
    ∃ start, components path = start ++ moves path ∧ normalNames start = [] := by
  obtain ⟨first, rest, cut⟩ := List.exists_cons_of_ne_nil (pieces_ne_nil '/' path.toList)
  have own : moves path =
      (Component.ofPiece first).toList ++ rest.filterMap Component.ofPiece := by
    rw [moves, cut, List.filterMap_cons]
    cases Component.ofPiece first <;> rfl
  rw [components_eq_of_pieces cut, own]
  cases piece : Component.ofPiece first with
  | some component =>
      have moving : (Component.ofPiece first).isNone = false := by rw [piece]; rfl
      have same := ofFirstPiece_of_moves rest.isEmpty moving
      exact ⟨[], by rw [same, piece, List.nil_append], rfl⟩
  | none =>
      refine ⟨(Component.ofFirstPiece first rest.isEmpty).toList, rfl, ?_⟩
      unfold Component.ofFirstPiece
      split
      · split <;> rfl
      · split
        · rfl
        · rw [piece]
          rfl

/-- The last piece that moves, with the pieces behind it that stay. -/
theorem exists_last_move {path : String} {ahead : List Component} {component : Component}
    (ends : moves path = ahead ++ [component]) :
    ∃ front piece still, pieces '/' path.toList = front ++ piece :: still ∧
      front.filterMap Component.ofPiece = ahead ∧
      Component.ofPiece piece = some component ∧
      ∀ other ∈ still, Component.ofPiece other = none := by
  obtain ⟨front, back, cut, aheadEq, backEq⟩ := List.filterMap_eq_append_iff.mp ends
  obtain ⟨skipped, piece, still, rfl, skippedStay, isComponent, stillEq⟩ :=
    List.filterMap_eq_cons_iff.mp backEq
  refine ⟨front ++ skipped, piece, still, by simp [cut], ?_, isComponent,
    List.filterMap_eq_nil_iff.mp stillEq⟩
  rw [List.filterMap_append, aheadEq, List.filterMap_eq_nil_iff.mpr skippedStay, List.append_nil]

/-- The file name is that of the last piece that moves. -/
theorem fileName?_eq_some_iff {path name : String} :
    fileName? path = some name ↔ (moves path).getLast? = some (.normal name) := by
  obtain ⟨start, parts, nameless⟩ := exists_components_eq path
  rw [fileName?, parts]
  rcases List.eq_nil_or_concat (moves path) with none | ⟨ahead, component, ends⟩
  · rw [none, List.append_nil]
    constructor
    · intro named
      split at named
      · next found =>
          have isName : _ ∈ normalNames start :=
            List.mem_filterMap.mpr ⟨_, List.mem_of_getLast? found, rfl⟩
          rw [nameless] at isName
          cases isName
      · cases named
    · intro named
      cases named
  · rw [List.concat_eq_append] at ends
    rw [ends, ← List.append_assoc, List.getLast?_concat, List.getLast?_concat]
    cases component <;> simp

/-! ## Down to the stem -/

section LastPiece

variable {path : String} {front still : List (List Char)} {piece : List Char}

/-- From a piece that moves on, every step is one after the first. -/
theorem exists_steps_append (cut : pieces '/' path.toList = front ++ piece :: still)
    (moving : (Component.ofPiece piece).isNone = false) :
    ∃ before, steps path = before ++ laterStep piece :: still.map laterStep ∧
      before.map Prod.fst = front := by
  rw [steps, cut]
  cases front with
  | nil =>
      refine ⟨[], ?_, rfl⟩
      rw [List.nil_append, stepsOfPieces, ofFirstPiece_of_moves _ moving]
      rfl
  | cons first rest =>
      refine ⟨(first, Component.ofFirstPiece first false) :: rest.map laterStep, ?_,
        by simp [laterStep, Function.comp_def]⟩
      have notAlone : (rest ++ piece :: still).isEmpty = false := by simp
      rw [List.cons_append, stepsOfPieces, notAlone, List.map_append]
      rfl

variable {name : String}

/-- Cutting the extension off leaves the pieces ahead of the file name, and the stem. -/
theorem withoutExtension_of_pieces (cut : pieces '/' path.toList = front ++ piece :: still)
    (isName : Component.ofPiece piece = some (.normal name))
    (stays : ∀ other ∈ still, Component.ofPiece other = none) :
    withoutExtension path =
      String.ofList (joinPieces '/' (front ++ [(splitName name.toList).1])) := by
  obtain ⟨before, split, sameFront⟩ := exists_steps_append cut (by rw [isName]; rfl)
  have kept : (trimSteps (steps path)).dropLast = before := by
    rw [split, trimSteps_append (by rw [laterStep, isName]; rfl) (by simpa [laterStep] using stays),
      List.dropLast_concat]
  have last : moves path = front.filterMap Component.ofPiece ++ [.normal name] := by
    rw [moves, cut, List.filterMap_append, List.filterMap_cons_some isName,
      List.filterMap_eq_nil_iff.mpr stays]
  have named : fileName? path = some name := by
    rw [fileName?_eq_some_iff, last, List.getLast?_concat]
  rw [withoutExtension, named]
  dsimp only
  rw [kept, sameFront]

theorem ofPiece_eq_normal (isName : Component.ofPiece piece = some (.normal name)) :
    name.toList = piece ∧ piece ≠ [] := by
  unfold Component.ofPiece at isName
  split at isName
  · cases isName
  · next solid =>
      split at isName
      · cases isName
      · cases isName
        exact ⟨String.toList_ofList, fun empty => solid (Or.inl empty)⟩

theorem splitName_isPrefix (name : List Char) : (splitName name).1 <+: name := by
  unfold splitName
  dsimp only
  split
  · exact List.prefix_rfl
  · exact List.take_prefix _ _

theorem moves_withoutExtension (cut : pieces '/' path.toList = front ++ piece :: still)
    (isName : Component.ofPiece piece = some (.normal name))
    (stays : ∀ other ∈ still, Component.ofPiece other = none) :
    moves (withoutExtension path) = front.filterMap Component.ofPiece ++
      (Component.ofPiece (splitName name.toList).1).toList := by
  have whole : ∀ part ∈ front ++ [(splitName name.toList).1], '/' ∉ part := by
    intro part member
    rcases List.mem_append.mp member with ahead | stem
    · exact not_mem_of_mem_pieces (cut ▸ List.mem_append_left _ ahead)
    · rw [List.mem_singleton.mp stem, (ofPiece_eq_normal isName).1]
      have slashless : '/' ∉ piece :=
        not_mem_of_mem_pieces (cut ▸ List.mem_append_right _ List.mem_cons_self)
      exact fun slash => slashless ((splitName_isPrefix piece).mem slash)
  rw [moves, withoutExtension_of_pieces cut isName stays, String.toList_ofList,
    pieces_joinPieces (by simp) whole, List.filterMap_append]
  cases stem : Component.ofPiece (splitName name.toList).1 <;> simp [stem]

end LastPiece

/-! ## Stems -/

/-- The part of a name behind its last dot. -/
theorem reverse_takeWhile_ahead {stem extension : List Char} (last : '.' ∉ extension) :
    ((stem ++ '.' :: extension).reverse.takeWhile (· ≠ '.')).reverse = extension := by
  rw [List.reverse_append, List.reverse_cons, List.append_assoc, List.takeWhile_append_of_pos,
    List.singleton_append, List.takeWhile_cons_of_neg (by simp), List.append_nil,
    List.reverse_reverse]
  intro c member
  have different : c ≠ '.' := fun dot => last (dot ▸ List.mem_reverse.mp member)
  simpa using different

theorem splitName_ahead {stem extension : List Char} (last : '.' ∉ extension) (solid : stem ≠ []) :
    (splitName (stem ++ '.' :: extension)).1 = stem := by
  have count : (stem ++ '.' :: extension).length = stem.length + 1 + extension.length := by
    rw [List.length_append, List.length_cons]
    omega
  have front : (stem ++ '.' :: extension).take
      ((stem ++ '.' :: extension).length - extension.length - 1) = stem := by
    have stemLength : (stem ++ '.' :: extension).length - extension.length - 1 = stem.length := by
      omega
    rw [stemLength, List.take_left]
  rw [splitName, reverse_takeWhile_ahead last, front, if_neg]
  rintro (shorter | empty)
  · omega
  · exact solid empty

theorem splitName_whole {name : List Char} (dotless : '.' ∉ name.tail) :
    (splitName name).1 = name := by
  cases name with
  | nil => rfl
  | cons c rest =>
      by_cases hidden : c = '.'
      · subst hidden
        have behind : (('.' :: rest).reverse.takeWhile (· ≠ '.')).reverse = rest :=
          @reverse_takeWhile_ahead [] rest dotless
        have nothing : ('.' :: rest).length - rest.length - 1 = 0 := by simp
        rw [splitName, behind, nothing, if_pos (Or.inr List.take_zero)]
      · have all : ((c :: rest).reverse.takeWhile (· ≠ '.')).reverse = c :: rest := by
          rw [List.takeWhile_eq_self_iff.mpr, List.reverse_reverse]
          intro each member
          have different : each ≠ '.' := by
            rintro rfl
            rcases List.mem_cons.mp (List.mem_reverse.mp member) with first | later
            · exact hidden first.symm
            · exact dotless later
          simpa using different
        rw [splitName, all, if_pos (Or.inl rfl)]

/-- Every file name has one stem, the one it is split at. -/
theorem isStem_iff {name stem : String} :
    IsStem name stem ↔ stem = String.ofList (splitName name.toList).1 := by
  constructor
  · intro isStem
    cases isStem with
    | ahead stem extension cut last solid =>
        have text : name.toList = stem.toList ++ '.' :: extension.toList := by simp [cut]
        rw [text, splitName_ahead last (by simpa using solid), String.ofList_toList]
    | whole dotless => rw [splitName_whole dotless, String.ofList_toList]
  · rintro rfl
    by_cases dotless : '.' ∉ name.toList.tail
    · rw [splitName_whole dotless, String.ofList_toList]
      exact .whole dotless
    · rw [not_not, ← List.mem_reverse] at dotless
      obtain ⟨behind, ahead, split, last⟩ := List.eq_append_cons_of_mem dotless
      have tail : name.toList.tail = ahead.reverse ++ '.' :: behind.reverse := by
        rw [← List.reverse_reverse name.toList.tail, split]
        simp
      cases chars : name.toList with
      | nil => simp [chars] at tail
      | cons c rest =>
          rw [chars, List.tail_cons] at tail
          have lastAfter : '.' ∉ behind.reverse := by simpa using last
          rw [tail, ← List.cons_append, splitName_ahead lastAfter (List.cons_ne_nil _ _)]
          refine .ahead _ (String.ofList behind.reverse) ?_ (by simpa using last) (by simp)
          rw [← String.toList_inj, chars, tail]
          simp

/-! ## Module names -/

/-- The names that a module name joins: those along the way, and in place of a file name at the end
its stem, unless the stem stands for no name. -/
def stemmed (way : List Component) : List String :=
  match way.getLast? with
  | some (.normal name) =>
      normalNames way.dropLast ++
        normalNames (Component.ofPiece (splitName name.toList).1).toList
  | _ => normalNames way

theorem normalNames_append (front back : List Component) :
    normalNames (front ++ back) = normalNames front ++ normalNames back :=
  List.filterMap_append

theorem normalNames_components (path : String) :
    normalNames (components path) = normalNames (moves path) := by
  obtain ⟨start, parts, nameless⟩ := exists_components_eq path
  rw [parts, normalNames_append, nameless, List.nil_append]

theorem normalNames_withoutExtension (path : String) :
    normalNames (moves (withoutExtension path)) = stemmed (moves path) := by
  cases named : fileName? path with
  | none =>
      have stays : withoutExtension path = path := by rw [withoutExtension, named]
      rw [stays, stemmed]
      split
      · next name last =>
          rw [fileName?_eq_some_iff.mpr last] at named
          cases named
      · rfl
  | some name =>
      have last := fileName?_eq_some_iff.mp named
      obtain ⟨ahead, ends⟩ := List.getLast?_eq_some_iff.mp last
      obtain ⟨front, piece, still, cut, rfl, isName, stays⟩ := exists_last_move ends
      rw [moves_withoutExtension cut isName stays, normalNames_append, stemmed, last, ends]
      dsimp only
      rw [List.dropLast_concat]

/-- A module name depends on a path only through what moves. -/
theorem moduleName_eq (path : String) :
    moduleName path = ".".intercalate (stemmed (moves (forwardSlashes path))) := by
  rw [moduleName, normalNames_components, normalNames_withoutExtension]

theorem moduleName_of_respellings {path other : String}
    (respelled : Relation.EqvGen Respelling path other) : moduleName other = moduleName path := by
  induction respelled with
  | rel path other respelling => rw [moduleName_eq, moduleName_eq, respelling.moves_eq]
  | refl path => rfl
  | symm path other _ inductionHypothesis => exact inductionHypothesis.symm
  | trans path between other _ _ first second => exact second.trans first

theorem IsStem.solid {name stem : String} (isStem : IsStem name stem) (nonempty : name ≠ "") :
    stem ≠ "" := by
  cases isStem with
  | ahead stem extension cut last solid => exact solid
  | whole dotless => exact nonempty

theorem moduleName_of_stem {path name stem : String} {directory : List Component}
    (parts : components (forwardSlashes path) = directory ++ [.normal name])
    (isStem : IsStem name stem) (notHere : stem ≠ ".") (notUp : stem ≠ "..") :
    moduleName path = ".".intercalate (normalNames directory ++ [stem]) := by
  have named : fileName? (forwardSlashes path) = some name := by
    rw [fileName?, parts, List.getLast?_concat]
  have last := fileName?_eq_some_iff.mp named
  obtain ⟨ahead, ends⟩ := List.getLast?_eq_some_iff.mp last
  obtain ⟨_, _, _, _, _, isName, _⟩ := exists_last_move ends
  have nonempty : name ≠ "" := by
    obtain ⟨text, solid⟩ := ofPiece_eq_normal isName
    rintro rfl
    exact solid text.symm
  have sameDirectory : normalNames directory = normalNames ahead := by
    have whole := normalNames_components (forwardSlashes path)
    rw [parts, ends, normalNames_append, normalNames_append] at whole
    exact List.append_cancel_right whole
  have stemPiece : Component.ofPiece (splitName name.toList).1 = some (.normal stem) := by
    have text : (splitName name.toList).1 = stem.toList := by
      rw [isStem_iff.mp isStem, String.toList_ofList]
    have solid := isStem.solid nonempty
    rw [text, Component.ofPiece, if_neg, if_neg, String.ofList_toList]
    · exact fun up => notUp (String.toList_inj.mp up)
    · rintro (empty | here)
      · exact solid (String.toList_inj.mp empty)
      · exact notHere (String.toList_inj.mp here)
  rw [moduleName_eq, stemmed, last, ends]
  dsimp only
  rw [List.dropLast_concat, stemPiece, sameDirectory]
  rfl

/-- A module name does not depend on how its path is spelled: respellings keep it, any number of
them and in either direction. Where the path ends in a file name, that name has exactly one stem,
and unless the stem is `.` or `..` the module name joins the names of the directory and the stem. -/
theorem moduleName_spelling (path : String) :
    (∀ other, Relation.EqvGen Respelling path other → moduleName other = moduleName path) ∧
    ∀ directory name, components (forwardSlashes path) = directory ++ [.normal name] →
      ∃ stem, (∀ text, IsStem name text ↔ text = stem) ∧
        (stem ≠ "." → stem ≠ ".." →
          moduleName path = ".".intercalate (normalNames directory ++ [stem])) := by
  refine ⟨fun other respelled => moduleName_of_respellings respelled, ?_⟩
  intro directory name parts
  refine ⟨String.ofList (splitName name.toList).1, fun text => isStem_iff, ?_⟩
  intro notHere notUp
  exact moduleName_of_stem parts (isStem_iff.mpr rfl) notHere notUp

/-- The path `a/b.c.ts` and a spelling of it with `./` in front, a backslash, and a slash behind. -/
theorem moduleName_spelling_sample :
    Relation.EqvGen Respelling "a/b.c.ts" "./a\\b.c.ts/" ∧
    components (forwardSlashes "a/b.c.ts") = [.normal "a"] ++ [.normal "b.c.ts"] ∧
    moduleName "./a\\b.c.ts/" = "a.b.c" := by
  have respelled : Relation.EqvGen Respelling "a/b.c.ts" "./a\\b.c.ts/" := by
    refine .trans _ "a\\b.c.ts" _ (.rel _ _ (.backslash "a" "b.c.ts")) ?_
    refine .trans _ "./a\\b.c.ts" _ (.rel _ _ (.prefixed "a\\b.c.ts")) ?_
    exact .rel _ _ (.suffixed "./a\\b.c.ts" (by decide))
  have parts : components (forwardSlashes "a/b.c.ts") =
      [.normal "a"] ++ [.normal "b.c.ts"] := by decide
  obtain ⟨same, made⟩ := moduleName_spelling "a/b.c.ts"
  obtain ⟨stem, unique, joined⟩ := made _ _ parts
  have stemEq : stem = "b.c" := by
    have isStem : IsStem "b.c.ts" "b.c" := .ahead "b.c" "ts" (by decide) (by decide) (by decide)
    exact ((unique "b.c").mp isStem).symm
  subst stemEq
  refine ⟨respelled, parts, ?_⟩
  rw [same _ respelled, joined (by decide) (by decide)]
  decide

end SourceQuote.Path

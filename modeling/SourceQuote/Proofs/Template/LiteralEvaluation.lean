import Mathlib.Data.List.Basic
import SourceQuote.Proofs.Template.Rendering
import SourceQuote.Template.ArrowFunction

/-!
Contract: the value of a template literal, and what escaping and holes do to it.

Owns: evaluation of template literals by the rules of the script language, character
by character, with what follows the literal left over; and the value of each piece
that the emitter writes.

Only literals whose holes are plain names are read. Escapes by character code and
escaped line ends are not read either: evaluation then gives nothing, so where it gives
a value the value is the language's.
-/

namespace SourceQuote

theorem Text.isIdentifierPart_of_isIdentifier {name : String}
    (shaped : Text.isIdentifier name = true) :
    ∀ c ∈ name.toList, Text.isIdentifierPart c = true := by
  unfold Text.isIdentifier at shaped
  cases chars : name.toList with
  | nil => simp
  | cons first rest =>
      rw [chars, Text.hasIdentifierShape, Bool.and_eq_true, List.all_eq_true] at shaped
      intro c member
      rcases List.mem_cons.mp member with rfl | later
      · rw [Text.isIdentifierPart, shaped.1, Bool.true_or]
      · exact shaped.2 c later

namespace Script

/-- The character that an escape stands for: a control character, or the character
itself. -/
def cook? (c : Char) : Option Char :=
  if c = 'n' then some '\n'
  else if c = 'r' then some '\r'
  else if c = 't' then some '\t'
  else if c = 'b' then some '\x08'
  else if c = 'v' then some '\x0b'
  else if c = 'f' then some '\x0c'
  else if c.isDigit ∨ c = 'x' ∨ c = 'u' then none
  else if c = '\n' ∨ c = '\r' ∨ c.toNat = 0x2028 ∨ c.toNat = 0x2029 then none
  else some c

def emit (chars : List Char) (evaluated : List Char × List Char) : List Char × List Char :=
  (chars ++ evaluated.1, evaluated.2)

mutual

/-- The value of a literal from inside it, and what follows its end. The literal ends
at the first backtick that is not escaped; a carriage return, with the line feed after
it if there is one, is read as a line feed. -/
def evaluateText (environment : String → Option String) :
    List Char → Option (List Char × List Char)
  | [] => none
  | '\x60' :: rest => some ([], rest)
  | '\\' :: c :: rest =>
      (cook? c).bind fun cooked => (evaluateText environment rest).map (emit [cooked])
  | '$' :: '\x7b' :: rest => evaluateHole environment [] rest
  | '\r' :: '\n' :: rest => (evaluateText environment rest).map (emit ['\n'])
  | '\r' :: rest => (evaluateText environment rest).map (emit ['\n'])
  | c :: rest => (evaluateText environment rest).map (emit [c])

/-- The same from inside a hole, after the characters of `name`. -/
def evaluateHole (environment : String → Option String) (name : List Char) :
    List Char → Option (List Char × List Char)
  | [] => none
  | '\x7d' :: rest =>
      (environment (String.ofList name)).bind fun value =>
        (evaluateText environment rest).map (emit value.toList)
  | c :: rest =>
      if Text.isIdentifierPart c then evaluateHole environment (name ++ [c]) rest else none

end

variable {environment : String → Option String}

theorem map_emit_map_emit (first second : List Char)
    (evaluated : Option (List Char × List Char)) :
    (evaluated.map (emit second)).map (emit first) = evaluated.map (emit (first ++ second)) := by
  cases evaluated with
  | none => rfl
  | some result => simp [emit]

theorem evaluateText_plain {c : Char} (following : List Char)
    (notBackslash : c ≠ '\\') (notBacktick : c ≠ '\x60') (notDollar : c ≠ '$')
    (notReturn : c ≠ '\r') :
    evaluateText environment (c :: following) =
      (evaluateText environment following).map (emit [c]) := by
  rw [evaluateText] <;> simp_all

theorem evaluateText_escape {c cooked : Char} (following : List Char)
    (cooks : cook? c = some cooked) :
    evaluateText environment ('\\' :: c :: following) =
      (evaluateText environment following).map (emit [cooked]) := by
  rw [evaluateText, cooks]
  rfl

/-- An escaped character is worth itself. -/
theorem evaluateText_escapeLiteralChar (c : Char) (following : List Char) :
    evaluateText environment (Template.escapeLiteralChar c ++ following) =
      (evaluateText environment following).map (emit [c]) := by
  unfold Template.escapeLiteralChar
  by_cases isBackslash : c = '\\'
  · subst isBackslash
    exact evaluateText_escape following rfl
  by_cases isBacktick : c = '\x60'
  · subst isBacktick
    exact evaluateText_escape following rfl
  by_cases isDollar : c = '$'
  · subst isDollar
    exact evaluateText_escape following rfl
  by_cases isReturn : c = '\r'
  · subst isReturn
    exact evaluateText_escape following rfl
  rw [if_neg isBackslash, if_neg isBacktick, if_neg isDollar, if_neg isReturn]
  exact evaluateText_plain following isBackslash isBacktick isDollar isReturn

/-- Escaped text is worth itself. -/
theorem evaluateText_escapeLiteral (text : String) (following : List Char) :
    evaluateText environment ((Template.escapeLiteral text).toList ++ following) =
      (evaluateText environment following).map (emit text.toList) := by
  rw [Template.escapeLiteral, String.toList_ofList]
  induction text.toList with
  | nil =>
      cases evaluated : evaluateText environment following with
      | none => simp [evaluated]
      | some result => simp [evaluated, emit]
  | cons c rest inductionHypothesis =>
      rw [List.flatMap_cons, List.append_assoc, evaluateText_escapeLiteralChar,
        inductionHypothesis, map_emit_map_emit]
      rfl

theorem evaluateHole_name (name chars following : List Char)
    (parts : ∀ c ∈ chars, Text.isIdentifierPart c = true) :
    evaluateHole environment name (chars ++ '\x7d' :: following) =
      (environment (String.ofList (name ++ chars))).bind fun value =>
        (evaluateText environment following).map (emit value.toList) := by
  induction chars generalizing name with
  | nil => rw [List.nil_append, evaluateHole, List.append_nil]
  | cons c rest inductionHypothesis =>
      have isPart := parts c List.mem_cons_self
      have notBrace : c ≠ '\x7d' := by
        intro isBrace
        subst isBrace
        exact absurd isPart (by decide)
      have restParts : ∀ later ∈ rest, Text.isIdentifierPart later = true :=
        fun later member => parts later (List.mem_cons_of_mem _ member)
      rw [List.cons_append, evaluateHole, if_pos isPart, inductionHypothesis _ restParts,
        List.append_assoc, List.singleton_append]
      intro same
      exact notBrace same

/-- A hole for a name is worth what the name is bound to. -/
theorem evaluateText_hole {name value : String} (following : List Char)
    (shaped : Text.isIdentifier name = true)
    (bound : environment name = some value) :
    evaluateText environment ((Template.hole name).toList ++ following) =
      (evaluateText environment following).map (emit value.toList) := by
  have parts := Text.isIdentifierPart_of_isIdentifier shaped
  have opened : (Template.hole name).toList ++ following =
      '$' :: '\x7b' :: (name.toList ++ '\x7d' :: following) := by
    simp [Template.hole]
  rw [opened, evaluateText, evaluateHole_name [] name.toList following parts, List.nil_append,
    String.ofList_toList, bound]
  rfl

/-! ## Literals of templates -/

/-- An environment in which each of some names has the value at its position. -/
def Binds (environment : String → Option String) (names values : List String) : Prop :=
  ∀ (position : Nat) (name value : String),
    names[position]? = some name → values[position]? = some value →
      environment name = some value

/-- A bound name has the value that rendering puts in its place. -/
theorem Binds.eq_lookup {names values : List String} {name : String}
    (binds : Binds environment names values)
    (sameCount : values.length = names.length)
    (declared : name ∈ names) :
    environment name = some (((names.zip values).lookup name).getD name) := by
  have inside : names.idxOf name < values.length := by
    rw [sameCount]
    exact List.idxOf_lt_length_iff.mpr declared
  have valueAt : values[names.idxOf name]? = some (values.get ⟨names.idxOf name, inside⟩) :=
    List.getElem?_eq_getElem inside
  rw [Template.lookup_zip sameCount, if_pos declared, valueAt]
  exact binds _ name _ (List.getElem?_idxOf declared) valueAt

variable {parameters values : List String}

/-- A segment written into a literal is worth what rendering writes for it. -/
theorem evaluateText_literalSegment (segment : Segment) (following : List Char)
    (shaped : ∀ parameter ∈ parameters, Text.isIdentifier parameter = true)
    (binds : Binds environment parameters values)
    (sameCount : values.length = parameters.length) :
    evaluateText environment
        ((Template.literalSegment parameters segment).toList ++ following) =
      (evaluateText environment following).map
        (emit (Template.substitute (parameters.zip values) segment).toList) := by
  cases segment with
  | literal text => exact evaluateText_escapeLiteral text following
  | identifierRef name =>
      rw [Template.literalSegment, Template.substitute]
      by_cases declared : name ∈ parameters
      · rw [if_pos declared]
        exact evaluateText_hole following (shaped name declared)
          (binds.eq_lookup sameCount declared)
      · rw [if_neg declared, Template.lookup_zip sameCount, if_neg declared]
        exact evaluateText_escapeLiteral name following

/-- A template's literal, from inside it, is worth the rendered text and ends at its
own backtick, whatever follows. -/
theorem evaluateText_segments (segments : List Segment) (following : List Char)
    (shaped : ∀ parameter ∈ parameters, Text.isIdentifier parameter = true)
    (binds : Binds environment parameters values)
    (sameCount : values.length = parameters.length) :
    evaluateText environment
        ((String.join (segments.map (Template.literalSegment parameters))).toList ++
          '\x60' :: following) =
      some ((String.join (segments.map
        (Template.substitute (parameters.zip values)))).toList, following) := by
  induction segments with
  | nil =>
      simp only [List.map_nil, String.join_nil, String.toList_empty, List.nil_append]
      rw [evaluateText]
  | cons segment rest inductionHypothesis =>
      rw [List.map_cons, List.map_cons, String.join_cons, String.join_cons,
        String.toList_append, String.toList_append, List.append_assoc,
        evaluateText_literalSegment segment _ shaped binds sameCount, inductionHypothesis]
      rfl

end Script

end SourceQuote

import SourceQuote.Proofs.Json.RoundTrip
import SourceQuote.Proofs.Template.ArrowFunction
import SourceQuote.Repository.Registration

/-!
Contract: the registration statement reads back as the repository.

Owns: a reader of call statements by the lexical rules of the script language, and that it reads a
registration statement, to its last character, as one call with the quotations of the repository.

The reader takes calls of dotted names whose arguments are names, object literals and arrow
functions with a template literal for a body. Keys of an object are names or strings. Blanks may
stand between tokens, and a comma after the last member.

## Why nothing can break out

Each token ends where its own rules say: a name before the first character that is no part of one,
a string at the first quote that is not escaped, a literal at the first backtick that is not
escaped. So each piece of the statement is read in front of any text that may follow it.
-/

namespace SourceQuote.Script

/-! ## Reading calls -/

/-- The part of a text in front of what follows it. -/
def textBefore (chars following : List Char) : String :=
  String.ofList (chars.take (chars.length - following.length))

def mark? (expected : Char) (chars : List Char) : Option (List Char) :=
  match Json.skipSpace chars with
  | c :: rest => if c = expected then some rest else none
  | [] => none

/-- The longest word of some characters, if it has a shape, and what follows it. -/
def word? (isPart : Char → Bool) (hasShape : List Char → Bool) (chars : List Char) :
    Option (String × List Char) :=
  if hasShape (chars.takeWhile isPart) then
    some (String.ofList (chars.takeWhile isPart), chars.dropWhile isPart)
  else none

def identifier? : List Char → Option (String × List Char) :=
  word? Text.isIdentifierPart Text.hasIdentifierShape

def dottedName? : List Char → Option (String × List Char) :=
  word? (fun c => Text.isIdentifierPart c || c = '.') fun chars =>
    Text.isDottedIdentifier (String.ofList chars)

/-- A key of an object, a string or a name, and what follows it. -/
def key? : List Char → Option (String × List Char)
  | '"' :: rest => (Json.readString rest).bind fun (text, rest) => text.map fun text => (text, rest)
  | chars => identifier? chars

def anyName (name : String) : Option String :=
  if Text.isIdentifier name then some "" else none

/-- Whether a parameter list declares names only. A name may be declared twice: that is no matter
of tokens. -/
def declaresNames (inside : List Char) : Bool :=
  inside = [] || ((Text.pieces ',' inside).mapM parameter?).isSome

/-- What follows an arrow function whose body is a template literal. -/
def afterFunction? : List Char → Option (List Char)
  | '(' :: rest => do
      let following ← (rest.dropWhile (· ≠ ')')).tail?
      let arrow ← afterAnnotation? following
      let body ← literalBody? arrow
      let (_, following) ← evaluateText anyName body
      if declaresNames (rest.takeWhile (· ≠ ')')) then return following else none
  | _ => none

/-- What an argument of a call may be. -/
inductive Value where
  | name (text : String)
  | function (text : String)
  | object (members : List (String × Value))

mutual

/-- Reads a value, possibly after blanks. `fuel` bounds the number of nested and neighbouring
values. -/
def readValue : Nat → List Char → Option (Value × List Char)
  | 0, _ => none
  | fuel + 1, chars =>
      match Json.skipSpace chars with
      | '\x7b' :: rest => (readMembers fuel rest).map fun (members, rest) => (.object members, rest)
      | '(' :: rest =>
          (afterFunction? ('(' :: rest)).map fun following =>
            (.function (textBefore ('(' :: rest) following), following)
      | chars => (identifier? chars).map fun (text, rest) => (.name text, rest)

def readMembers : Nat → List Char → Option (List (String × Value) × List Char)
  | 0, _ => none
  | fuel + 1, chars =>
      match Json.skipSpace chars with
      | '\x7d' :: rest => some ([], rest)
      | chars => do
          let (key, rest) ← key? chars
          let rest ← mark? ':' rest
          let (value, rest) ← readValue fuel rest
          match Json.skipSpace rest with
          | ',' :: rest =>
              let (members, rest) ← readMembers fuel rest
              return ((key, value) :: members, rest)
          | '\x7d' :: rest => return ([(key, value)], rest)
          | _ => none

end

def readArguments : Nat → List Char → Option (List Value × List Char)
  | 0, _ => none
  | fuel + 1, chars => do
      let (value, rest) ← readValue fuel chars
      match Json.skipSpace rest with
      | ',' :: rest =>
          let (values, rest) ← readArguments fuel rest
          return (value :: values, rest)
      | ')' :: rest => return ([value], rest)
      | _ => none

/-- A call of a dotted name. -/
structure Call where
  callee : String
  arguments : List Value

/-- The call that a whole text is, with the semicolon that ends it. Each value takes at least one
character, so the number of characters is fuel enough. -/
def Call.read? (text : String) : Option Call := do
  let (callee, rest) ← dottedName? text.toList
  let rest ← mark? '(' rest
  let (values, rest) ← readArguments text.length rest
  let rest ← mark? ';' rest
  if rest = [] then return ⟨callee, values⟩ else none

/-! ## Tokens -/

variable {following : List Char}

theorem textBefore_append (front following : List Char) :
    textBefore (front ++ following) following = String.ofList front := by
  simp [textBefore]

theorem mark?_cons {c : Char} (solid : Json.isSpace c = false) (rest : List Char) :
    mark? c (c :: rest) = some rest := by
  rw [mark?, Json.skipSpace_cons solid]
  exact if_pos rfl

/-- A word is read up to the first character that is no part of it. -/
theorem word?_append {isPart : Char → Bool} {hasShape : List Char → Bool} {text : String}
    (parts : ∀ c ∈ text.toList, isPart c = true) (shaped : hasShape text.toList = true)
    (ends : ∀ c ∈ following.head?, isPart c = false) :
    word? isPart hasShape (text.toList ++ following) = some (text, following) := by
  have taken : following.takeWhile isPart = [] ∧ following.dropWhile isPart = following := by
    cases following with
    | nil => exact ⟨rfl, rfl⟩
    | cons c rest =>
        have stops := ends c rfl
        exact ⟨List.takeWhile_cons_of_neg (by simp [stops]),
          List.dropWhile_cons_of_neg (by simp [stops])⟩
  rw [word?, List.takeWhile_append_of_pos parts, List.dropWhile_append_of_pos parts, taken.1,
    taken.2, List.append_nil, if_pos shaped, String.ofList_toList]

theorem identifier?_append {name : String} (shaped : Text.isIdentifier name = true)
    (ends : ∀ c ∈ following.head?, Text.isIdentifierPart c = false) :
    identifier? (name.toList ++ following) = some (name, following) :=
  word?_append (Text.isIdentifierPart_of_isIdentifier shaped) shaped ends

theorem mem_joinPieces {separator c : Char} {parts : List (List Char)}
    (member : c ∈ Text.joinPieces separator parts) : c = separator ∨ ∃ part ∈ parts, c ∈ part := by
  match parts, member with
  | [part], member => exact Or.inr ⟨part, List.mem_singleton_self part, member⟩
  | part :: next :: rest, member =>
      rw [Text.joinPieces, List.mem_append, List.mem_cons] at member
      rcases member with inside | isSeparator | later
      · exact Or.inr ⟨part, List.mem_cons_self, inside⟩
      · exact Or.inl isSeparator
      · rcases mem_joinPieces later with isSeparator | ⟨other, isOther, inside⟩
        · exact Or.inl isSeparator
        · exact Or.inr ⟨other, List.mem_cons_of_mem _ isOther, inside⟩

theorem dottedName?_append {name : String} (shaped : Text.isDottedIdentifier name = true)
    (ends : ∀ c ∈ following.head?, Text.isIdentifierPart c = false ∧ c ≠ '.') :
    dottedName? (name.toList ++ following) = some (name, following) := by
  refine word?_append ?_ ?_ ?_
  · intro c member
    rw [← Text.joinPieces_pieces '.' name.toList] at member
    rcases mem_joinPieces member with rfl | ⟨part, isPart, inside⟩
    · rfl
    · have partShaped : Text.isIdentifier (String.ofList part) = true := by
        rw [Text.isIdentifier, String.toList_ofList]
        exact List.all_eq_true.mp shaped part isPart
      have parts := Text.isIdentifierPart_of_isIdentifier partShaped
      rw [String.toList_ofList] at parts
      rw [parts c inside, Bool.true_or]
  · rw [String.ofList_toList]
    exact shaped
  · intro c isHead
    obtain ⟨noPart, noDot⟩ := ends c isHead
    rw [noPart, decide_eq_false noDot]
    rfl

theorem exists_cons_of_isIdentifier {name : String} (shaped : Text.isIdentifier name = true) :
    ∃ first rest, name.toList = first :: rest ∧ Json.isSpace first = false ∧
      ∀ {c : Char}, Text.isIdentifierPart c = false → first ≠ c := by
  have nonempty : name.toList ≠ [] := by
    intro empty
    rw [Text.isIdentifier, empty] at shaped
    cases shaped
  obtain ⟨first, rest, opened⟩ := List.exists_cons_of_ne_nil nonempty
  have absent : ∀ {c : Char}, Text.isIdentifierPart c = false → first ≠ c := by
    rintro c noPart rfl
    exact notMem_of_shaped shaped noPart (opened ▸ List.mem_cons_self)
  refine ⟨first, rest, opened, ?_, absent⟩
  simp only [Json.isSpace, absent (c := ' ') (by decide), absent (c := '\t') (by decide),
    absent (c := '\n') (by decide), absent (c := '\r') (by decide), decide_false, Bool.or_false]

/-- A key reads back as the method name, whatever the name holds. -/
theorem key?_objectKey (method : String)
    (ends : ∀ c ∈ following.head?, Text.isIdentifierPart c = false) :
    key? ((Repository.objectKey method).toList ++ following) = some (method, following) := by
  unfold Repository.objectKey
  by_cases shaped : Text.isIdentifier method = true
  · obtain ⟨first, rest, opened, _, absent⟩ := exists_cons_of_isIdentifier shaped
    rw [if_pos shaped, ← identifier?_append shaped ends, opened, List.cons_append, key?]
    intro _ same
    exact absent (by decide) (List.cons.inj same).1
  · rw [if_neg shaped, String.toList_ofList]
    obtain ⟨tail, opened, read⟩ := Json.readString_tail (some method) following
    rw [opened, key?, read]
    rfl

theorem binds_anyName {names : List String}
    (shaped : ∀ name ∈ names, Text.isIdentifier name = true) :
    Binds anyName names (List.replicate names.length "") := by
  intro position name value nameAt valueAt
  have isEmpty := List.eq_of_mem_replicate (List.mem_of_getElem? valueAt)
  rw [anyName, if_pos (shaped name (List.mem_of_getElem? nameAt)), isEmpty]

theorem declaresNames_parameterText {parameters : List String} (typed : Bool)
    (shaped : ∀ parameter ∈ parameters, Text.isIdentifier parameter = true) :
    declaresNames (parameterText typed parameters) = true := by
  unfold declaresNames
  by_cases nonempty : parameters = []
  · subst nonempty
    rfl
  · rw [mapM_parameter?_pieces typed nonempty shaped]
    exact Bool.or_true _

/-- An arrow function ends at its own last character, whatever its text holds. -/
theorem afterFunction?_arrowFunction (template : Template) (typed : Bool)
    (following : List Char)
    (shaped : ∀ parameter ∈ template.parameters, Text.isIdentifier parameter = true) :
    afterFunction? ((template.arrowFunction typed).toList ++ following) = some following := by
  obtain ⟨arrow, annotated, opened⟩ := afterAnnotation?_arrow typed
    (literalText template ++ '\x60' :: following)
  obtain ⟨inside, outside⟩ := takeWhile_parameterText typed
    ((if typed then ": string" else "").toList ++ (" => ".toList ++
      '\x60' :: (literalText template ++ '\x60' :: following))) shaped
  obtain ⟨value, literalEnds⟩ : ∃ value,
      evaluateText anyName (literalText template ++ '\x60' :: following) =
        some (value, following) :=
    ⟨_, evaluateText_segments template.segments following shaped (binds_anyName shaped)
      List.length_replicate⟩
  rw [toList_arrowFunction_append, afterFunction?, inside, outside]
  simp only [Option.bind_eq_bind, Option.bind_some, List.tail?_cons, annotated, opened,
    literalEnds, declaresNames_parameterText typed shaped, if_true, Option.pure_def]

/-! ## Members -/

theorem skipSpace_blanks {blanks : List Char} {c : Char} (blank : ∀ d ∈ blanks, Json.isSpace d = true)
    (solid : Json.isSpace c = false) (rest : List Char) :
    Json.skipSpace (blanks ++ c :: rest) = c :: rest := by
  rw [Json.skipSpace_append blank, Json.skipSpace_cons solid]

/-- An arrow function is read as a value with its own text. -/
theorem readValue_arrowFunction (template : Template) (typed : Bool) (fuel : Nat)
    (following : List Char)
    (shaped : ∀ parameter ∈ template.parameters, Text.isIdentifier parameter = true) :
    readValue (fuel + 1) (' ' :: ((template.arrowFunction typed).toList ++ following)) =
      some (.function (template.arrowFunction typed), following) := by
  have ended := afterFunction?_arrowFunction template typed following shaped
  have text := textBefore_append (template.arrowFunction typed).toList following
  obtain ⟨rest, opened⟩ : ∃ rest, (template.arrowFunction typed).toList ++ following =
      '(' :: rest := ⟨_, toList_arrowFunction_append template typed following⟩
  have blanks : Json.skipSpace (' ' :: '(' :: rest) = '(' :: rest := rfl
  rw [opened] at ended text ⊢
  simp only [readValue, blanks, ended, text, Option.map_some, String.ofList_toList]

theorem readMembers_close {blanks : List Char} (blank : ∀ c ∈ blanks, Json.isSpace c = true)
    (fuel : Nat) (following : List Char) :
    readMembers (fuel + 1) (blanks ++ '\x7d' :: following) = some ([], following) := by
  have closed : Json.skipSpace (blanks ++ '\x7d' :: following) = '\x7d' :: following :=
    skipSpace_blanks blank (by decide) following
  simp only [readMembers, closed]

theorem exists_cons_objectKey (method : String) :
    ∃ first rest, (Repository.objectKey method).toList = first :: rest ∧
      Json.isSpace first = false ∧ first ≠ '\x7d' := by
  unfold Repository.objectKey
  by_cases shaped : Text.isIdentifier method = true
  · obtain ⟨first, rest, opened, solid, absent⟩ := exists_cons_of_isIdentifier shaped
    exact ⟨first, rest, by rw [if_pos shaped, opened], solid, absent (by decide)⟩
  · rw [if_neg shaped, String.toList_ofList]
    exact ⟨'"', _, rfl, by decide, by decide⟩

/-- A member whose value ends at a comma, in front of the other members. -/
theorem readMembers_member {blanks valueText rest after : List Char} {value : Value}
    {members : List (String × Value)} {fuel : Nat}
    (blank : ∀ c ∈ blanks, Json.isSpace c = true) (method : String)
    (valueRead : readValue fuel valueText = some (value, ',' :: rest))
    (othersRead : readMembers fuel rest = some (members, after)) :
    readMembers (fuel + 1) (blanks ++ ((Repository.objectKey method).toList ++ ':' :: valueText)) =
      some ((method, value) :: members, after) := by
  have keyRead : key? ((Repository.objectKey method).toList ++ ':' :: valueText) =
      some (method, ':' :: valueText) :=
    key?_objectKey method fun c isHead => by cases isHead; decide
  have colon : mark? ':' (':' :: valueText) = some valueText := mark?_cons (by decide) _
  have comma : Json.skipSpace (',' :: rest) = ',' :: rest := Json.skipSpace_cons (by decide) _
  obtain ⟨first, others, opened, solid, notClosed⟩ := exists_cons_objectKey method
  rw [opened, List.cons_append] at keyRead ⊢
  have skipped := skipSpace_blanks blank solid (others ++ ':' :: valueText)
  unfold readMembers
  rw [skipped]
  split
  · next closed => exact absurd (List.cons.inj closed).1 notClosed
  · simp only [keyRead, colon, valueRead, comma, othersRead, Option.bind_eq_bind,
      Option.bind_some, Option.pure_def]

/-! ## The statement -/

def methodValue (typed : Bool) (quotation : Quotation) : Value :=
  .object [("func", .function (quotation.func.arrowFunction typed)),
    ("body", .function (quotation.body.arrowFunction typed))]

def methodText (typed : Bool) (newline : String) (quotation : Quotation)
    (following : List Char) : List Char :=
  ' ' :: '\x7b' :: (newline.toList ++ List.replicate 4 ' ' ++
    ((Repository.objectKey "func").toList ++ ':' :: ' ' ::
      ((quotation.func.arrowFunction typed).toList ++ ',' ::
        (newline.toList ++ List.replicate 4 ' ' ++
          ((Repository.objectKey "body").toList ++ ':' :: ' ' ::
            ((quotation.body.arrowFunction typed).toList ++ ',' ::
              (newline.toList ++ List.replicate 2 ' ' ++ '\x7d' :: following)))))))

theorem toList_registrationEntry_append (typed : Bool) (newline method : String)
    (quotation : Quotation) (following : List Char) :
    (Repository.registrationEntry typed newline (method, quotation)).toList ++ following =
      List.replicate 2 ' ' ++ ((Repository.objectKey method).toList ++
        ':' :: methodText typed newline quotation (',' :: (newline.toList ++ following))) := by
  have func : Repository.objectKey "func" = "func" := by
    rw [Repository.objectKey, if_pos (by decide)]
  have body : Repository.objectKey "body" = "body" := by
    rw [Repository.objectKey, if_pos (by decide)]
  unfold Repository.registrationEntry methodText
  rw [func, body]
  simp

section Statement

variable {newline : String} (typed : Bool) (blank : ∀ c ∈ newline.toList, Json.isSpace c = true)

include blank

theorem isSpace_of_mem_indented (level : Nat) :
    ∀ c ∈ newline.toList ++ List.replicate level ' ', Json.isSpace c = true := by
  intro c member
  rcases List.mem_append.mp member with inLine | inIndent
  · exact blank c inLine
  · rw [List.eq_of_mem_replicate inIndent]
    rfl

theorem readValue_methodText {quotation : Quotation} (fuel : Nat) (following : List Char)
    (funcShaped : ∀ name ∈ quotation.func.parameters, Text.isIdentifier name = true)
    (bodyShaped : ∀ name ∈ quotation.body.parameters, Text.isIdentifier name = true) :
    readValue (fuel + 4) (methodText typed newline quotation following) =
      some (methodValue typed quotation, following) := by
  have closed := readMembers_close (isSpace_of_mem_indented blank 2) fuel following
  have bodyRead := readMembers_member (isSpace_of_mem_indented blank 4) "body"
    (readValue_arrowFunction quotation.body typed fuel _ bodyShaped) closed
  have bothRead := readMembers_member (isSpace_of_mem_indented blank 4) "func"
    (readValue_arrowFunction quotation.func typed (fuel + 1) _ funcShaped) bodyRead
  rw [methodText, readValue]
  change (readMembers (fuel + 3) _).map _ = _
  rw [bothRead]
  rfl

/-- One method is one member, and the members of a repository are its methods, in order. -/
theorem readMembers_entries {entries : List (String × Quotation)} {fuel : Nat}
    (following : List Char) (enough : entries.length + 4 ≤ fuel)
    (funcShaped : ∀ entry ∈ entries, ∀ name ∈ entry.2.func.parameters,
      Text.isIdentifier name = true)
    (bodyShaped : ∀ entry ∈ entries, ∀ name ∈ entry.2.body.parameters,
      Text.isIdentifier name = true) :
    readMembers fuel (newline.toList ++
        ((String.join (entries.map (Repository.registrationEntry typed newline))).toList ++
          '\x7d' :: following)) =
      some (entries.map fun entry => (entry.1, methodValue typed entry.2), following) := by
  induction entries generalizing fuel with
  | nil =>
      obtain ⟨less, rfl⟩ : ∃ less, fuel = less + 1 :=
        ⟨fuel - 1, by rw [List.length_nil] at enough; omega⟩
      exact readMembers_close blank less following
  | cons entry rest inductionHypothesis =>
      obtain ⟨method, quotation⟩ := entry
      obtain ⟨less, rfl⟩ : ∃ less, fuel = less + 4 + 1 :=
        ⟨fuel - 5, by rw [List.length_cons] at enough; omega⟩
      have enoughForRest : rest.length + 4 ≤ less + 4 := by
        rw [List.length_cons] at enough
        omega
      have others := inductionHypothesis enoughForRest
        (fun other member => funcShaped other (List.mem_cons_of_mem _ member))
        (fun other member => bodyShaped other (List.mem_cons_of_mem _ member))
      have value := readValue_methodText typed blank less (',' :: (newline.toList ++
          ((String.join (rest.map (Repository.registrationEntry typed newline))).toList ++
            '\x7d' :: following)))
        (funcShaped (method, quotation) List.mem_cons_self)
        (bodyShaped (method, quotation) List.mem_cons_self)
      rw [List.map_cons, String.join_cons, String.toList_append, List.append_assoc,
        toList_registrationEntry_append, ← List.append_assoc]
      exact readMembers_member (isSpace_of_mem_indented blank 2) method value others

end Statement

/-- A name in front of a comma. -/
theorem readValue_name {name : String} (shaped : Text.isIdentifier name = true) (fuel : Nat)
    (rest : List Char) :
    readValue (fuel + 1) (name.toList ++ ',' :: rest) = some (.name name, ',' :: rest) := by
  have read : identifier? (name.toList ++ ',' :: rest) = some (name, ',' :: rest) :=
    identifier?_append shaped fun c isHead => by cases isHead; decide
  obtain ⟨first, others, opened, solid, absent⟩ := exists_cons_of_isIdentifier shaped
  rw [opened, List.cons_append] at read ⊢
  unfold readValue
  rw [Json.skipSpace_cons solid]
  split
  · next same => exact absurd (List.cons.inj same).1 (absent (by decide))
  · next same => exact absurd (List.cons.inj same).1 (absent (by decide))
  · rw [read]
    rfl

/-- A call with a name and an object that is read to its closing brace. -/
theorem read?_call {callee classRef text : String} (inside : List Char)
    {members : List (String × Value)}
    (written : text.toList = callee.toList ++ '(' :: (classRef.toList ++
      ',' :: ' ' :: '\x7b' :: (inside ++ ['\x7d', ')', ';'])))
    (dotted : Text.isDottedIdentifier callee = true)
    (shaped : Text.isIdentifier classRef = true)
    (membersRead : ∀ fuel, inside.length + 4 ≤ fuel →
      readMembers fuel (inside ++ ['\x7d', ')', ';']) = some (members, [')', ';'])) :
    Call.read? text = some ⟨callee, [.name classRef, .object members]⟩ := by
  obtain ⟨fuel, isFuel, enough⟩ : ∃ fuel, text.length = fuel + 3 ∧ inside.length + 4 ≤ fuel := by
    have counted := congrArg List.length written
    simp only [List.length_append, List.length_cons, List.length_nil, String.length_toList]
      at counted
    exact ⟨text.length - 3, by omega, by omega⟩
  have calleeRead : dottedName? text.toList = some (callee, '(' :: (classRef.toList ++
      ',' :: ' ' :: '\x7b' :: (inside ++ ['\x7d', ')', ';']))) := by
    rw [written]
    exact dottedName?_append dotted fun c isHead => by cases isHead; decide
  have objectRead : readValue (fuel + 1) (' ' :: '\x7b' :: (inside ++ ['\x7d', ')', ';'])) =
      some (.object members, [')', ';']) := by
    rw [readValue]
    change (readMembers fuel _).map _ = _
    rw [membersRead fuel enough]
    rfl
  have argumentsRead : readArguments (fuel + 3) (classRef.toList ++
      ',' :: ' ' :: '\x7b' :: (inside ++ ['\x7d', ')', ';'])) =
      some ([.name classRef, .object members], [';']) := by
    rw [readArguments, readValue_name shaped]
    change (readArguments (fuel + 2) _).bind _ = _
    rw [readArguments, objectRead]
    rfl
  rw [Call.read?, calleeRead, isFuel]
  change (readArguments (fuel + 3) _).bind _ = _
  rw [argumentsRead]
  rfl

end SourceQuote.Script

namespace SourceQuote.Repository

theorem length_le_length_join (typed : Bool) (newline : String)
    (entries : List (String × Quotation)) :
    entries.length ≤
      (String.join (entries.map (registrationEntry typed newline))).toList.length := by
  induction entries with
  | nil => exact Nat.zero_le _
  | cons entry rest inductionHypothesis =>
      have nonempty := Script.toList_registrationEntry_append typed newline entry.1 entry.2 []
      rw [List.append_nil] at nonempty
      rw [List.map_cons, String.join_cons, String.toList_append, List.length_append, nonempty,
        List.length_append, List.length_replicate, List.length_cons]
      omega

/-- The registration statement reads back as the repository. By the lexical rules of the script
language the whole text is one call with the class and an object, and the object has one member
for each method, in the order of the repository, under the method's own name and with the two
arrow functions as they were written. -/
theorem read?_registration (repository : Repository) (typed : Bool)
    {classRef registerCall newline : String}
    (shaped : ∀ entry ∈ repository.quotations.entries,
      (∀ name ∈ entry.2.func.parameters, Text.isIdentifier name = true) ∧
      ∀ name ∈ entry.2.body.parameters, Text.isIdentifier name = true)
    (isClass : Text.isIdentifier classRef = true)
    (isCallee : Text.isDottedIdentifier registerCall = true)
    (isLineEnd : newline = "\n" ∨ newline = "\r\n") :
    Script.Call.read? (repository.registration classRef registerCall typed newline) =
      some ⟨registerCall, [.name classRef,
        .object (repository.quotations.entries.map fun entry =>
          (entry.1, .object [("func", .function (entry.2.func.arrowFunction typed)),
            ("body", .function (entry.2.body.arrowFunction typed))]))]⟩ := by
  have blank : ∀ c ∈ newline.toList, Json.isSpace c = true := by
    rcases isLineEnd with rfl | rfl <;> simp [Json.isSpace]
  unfold registration isEmpty InsertionMap.isEmpty
  by_cases empty : repository.quotations.entries = []
  · rw [empty]
    refine Script.read?_call [] (by simp) isCallee isClass fun fuel enough => ?_
    obtain ⟨less, rfl⟩ : ∃ less, fuel = less + 1 := ⟨fuel - 1, by omega⟩
    exact Script.readMembers_close (List.forall_mem_nil _) less [')', ';']
  · rw [if_neg (by simpa using empty)]
    refine Script.read?_call (newline.toList ++
      (String.join (repository.quotations.entries.map (registrationEntry typed newline))).toList)
      (by simp) isCallee isClass fun fuel enough => ?_
    have counted := length_le_length_join typed newline repository.quotations.entries
    rw [List.length_append] at enough
    rw [List.append_assoc]
    exact Script.readMembers_entries typed blank _ (by omega)
      (fun entry member => (shaped entry member).1) fun entry member => (shaped entry member).2

/-- Names and texts that look like the ends of their strings, literals and of the statement, and a
parameter that is declared twice. -/
def oddMethods : Repository :=
  ((empty ⟨"m", "C"⟩).insert "\"\x7d);\\"
      ⟨⟨["a", "a"], [.literal "\x60\x7d);\n$\x7b", .identifierRef "a"]⟩, ⟨[], []⟩⟩).insert
    "plain" ⟨⟨["$"], [.identifierRef "$", .literal "\\"]⟩, ⟨[], [.identifierRef "\x60"]⟩⟩

theorem read?_registration_oddMethods :
    (∀ entry ∈ oddMethods.quotations.entries,
      (∀ name ∈ entry.2.func.parameters, Text.isIdentifier name = true) ∧
      ∀ name ∈ entry.2.body.parameters, Text.isIdentifier name = true) ∧
    ∃ members, Script.Call.read? (oddMethods.registration "C" "quoted.saveRepo" true "\r\n") =
        some ⟨"quoted.saveRepo", [.name "C", .object members]⟩ ∧
      members.map Prod.fst = ["\"\x7d);\\", "plain"] := by
  have shaped : ∀ entry ∈ oddMethods.quotations.entries,
      (∀ name ∈ entry.2.func.parameters, Text.isIdentifier name = true) ∧
      ∀ name ∈ entry.2.body.parameters, Text.isIdentifier name = true := by decide
  have read := read?_registration oddMethods true shaped
    (by decide : Text.isIdentifier "C" = true)
    (by decide : Text.isDottedIdentifier "quoted.saveRepo" = true)
    (Or.inr rfl : "\r\n" = "\n" ∨ "\r\n" = "\r\n")
  exact ⟨shaped, _, read, rfl⟩

end SourceQuote.Repository

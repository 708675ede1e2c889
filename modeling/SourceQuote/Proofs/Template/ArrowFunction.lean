import Mathlib.Data.List.Basic
import SourceQuote.Proofs.Template.LiteralEvaluation
import SourceQuote.Proofs.Text.Pieces

/-!
Contract: the arrow function of a template and the template agree.

Owns: a reader of arrow functions whose body is one template literal, that the written
parameters read back, and that calling the function is rendering the template.

The reader takes names with or without a type name behind a colon, and refuses a
parameter list in which a name is declared twice, as the language does.
-/

namespace SourceQuote

namespace Script

def dropSpaces (chars : List Char) : List Char :=
  chars.dropWhile (· = ' ')

def name? (chars : List Char) : Option String :=
  if Text.hasIdentifierShape (dropSpaces chars) then some (String.ofList (dropSpaces chars))
  else none

/-- The name that a parameter declares, with a type name behind a colon or without. -/
def parameter? (piece : List Char) : Option String :=
  match Text.pieces ':' piece with
  | [name] => name? name
  | [name, annotation] => (name? annotation).bind fun _ => name? name
  | _ => none

def parameters? (inside : List Char) : Option (List String) :=
  if inside = [] then some []
  else ((Text.pieces ',' inside).mapM parameter?).filter fun names => names.Nodup

/-- What follows a type annotation, if there is one. -/
def afterAnnotation? (chars : List Char) : Option (List Char) :=
  match dropSpaces chars with
  | ':' :: annotation =>
      let word := dropSpaces annotation
      if Text.hasIdentifierShape (word.takeWhile Text.isIdentifierPart) then
        some (word.dropWhile Text.isIdentifierPart)
      else none
  | other => some other

/-- What follows the arrow and the backtick that opens a template literal. -/
def literalBody? (chars : List Char) : Option (List Char) :=
  match dropSpaces chars with
  | '=' :: '>' :: rest =>
      match dropSpaces rest with
      | '\x60' :: body => some body
      | _ => none
  | _ => none

/-- An arrow function whose body opens with a template literal. -/
structure ArrowFunction where
  parameters : List String
  /-- The characters after the opening backtick. -/
  body : List Char

/-- Reads an arrow function up to the inside of its template literal. -/
def ArrowFunction.read? : List Char → Option ArrowFunction
  | '(' :: rest => do
      let parameters ← parameters? (rest.takeWhile (· ≠ ')'))
      let following ← (rest.dropWhile (· ≠ ')')).tail?
      let arrow ← afterAnnotation? following
      let body ← literalBody? arrow
      return ⟨parameters, body⟩
  | _ => none

/-! ## Parameters read back -/

theorem parameter?_space (piece : List Char) : parameter? (' ' :: piece) = parameter? piece := by
  obtain ⟨first, others, cut, cutAfterSpace⟩ :=
    @Text.pieces_cons_of_ne ':' ' ' (by decide) piece
  unfold parameter?
  rw [cut, cutAfterSpace]
  match others with
  | [] => rfl
  | [_] => rfl
  | _ :: _ :: _ => rfl

theorem notMem_of_shaped {name : String} {c : Char}
    (shaped : Text.isIdentifier name = true)
    (noPart : Text.isIdentifierPart c = false) :
    c ∉ name.toList := by
  intro member
  have isPart := Text.isIdentifierPart_of_isIdentifier shaped c member
  rw [noPart] at isPart
  contradiction

theorem name?_of_shaped {name : String} (shaped : Text.isIdentifier name = true) :
    name? name.toList = some name := by
  have noSpace : ' ' ∉ name.toList := notMem_of_shaped shaped (by decide)
  have unchanged : dropSpaces name.toList = name.toList := by
    unfold dropSpaces
    cases chars : name.toList with
    | nil => rfl
    | cons first rest =>
        have differs : first ≠ ' ' := by
          rintro rfl
          exact noSpace (chars ▸ List.mem_cons_self)
        rw [List.dropWhile_cons, if_neg (by simp [differs])]
  have shape : Text.hasIdentifierShape name.toList = true := shaped
  rw [name?, unchanged, if_pos shape, String.ofList_toList]

/-- A declared parameter reads back as its name. -/
theorem parameter?_declareParameter {name : String} (typed : Bool)
    (shaped : Text.isIdentifier name = true) :
    parameter? (Template.declareParameter typed name).toList = some name := by
  have noColon : ':' ∉ name.toList := notMem_of_shaped shaped (by decide)
  unfold parameter? Template.declareParameter
  cases typed with
  | false =>
      rw [if_neg (by decide), Text.pieces_of_not_mem noColon]
      exact name?_of_shaped shaped
  | true =>
      have annotation : Text.pieces ':' " string".toList = [" string".toList] := by decide
      have split : (name ++ ": string").toList = name.toList ++ ':' :: " string".toList := by
        simp
      rw [if_pos rfl, split, Text.pieces_append_separator, Text.pieces_of_not_mem noColon, annotation,
        List.singleton_append]
      have typeName : name? " string".toList = some "string" := by decide
      simp only [typeName, Option.bind_some]
      exact name?_of_shaped shaped

/-- The characters of a declared parameter end neither it nor the list. -/
theorem notMem_declareParameter {name : String} {c : Char} (typed : Bool)
    (shaped : Text.isIdentifier name = true)
    (noPart : Text.isIdentifierPart c = false)
    (notColon : c ≠ ':')
    (notSpace : c ≠ ' ') :
    c ∉ (Template.declareParameter typed name).toList := by
  have notInName := notMem_of_shaped shaped noPart
  unfold Template.declareParameter
  cases typed with
  | false => simpa using notInName
  | true =>
      have notInType : c ∉ "string".toList := notMem_of_shaped (by decide) noPart
      simp only [String.reduceToList, List.mem_cons, List.not_mem_nil, or_false, not_or]
        at notInType
      simp [notInName, notInType, notColon, notSpace]

def parameterText (typed : Bool) (parameters : List String) : List Char :=
  (", ".intercalate (parameters.map (Template.declareParameter typed))).toList

theorem parameterText_cons_cons (typed : Bool) (first second : String) (rest : List String) :
    parameterText typed (first :: second :: rest) =
      (Template.declareParameter typed first).toList ++
        ',' :: ' ' :: parameterText typed (second :: rest) := by
  simp [parameterText]

theorem notMem_parameterText {parameters : List String} (typed : Bool)
    (shaped : ∀ parameter ∈ parameters, Text.isIdentifier parameter = true) :
    ')' ∉ parameterText typed parameters := by
  match parameters, shaped with
  | [], _ => simp [parameterText]
  | [only], shaped =>
      have free : ')' ∉ (Template.declareParameter typed only).toList :=
        notMem_declareParameter typed (shaped only List.mem_cons_self)
          (by decide) (by decide) (by decide)
      simpa [parameterText] using free
  | first :: second :: rest, shaped =>
      have free : ')' ∉ (Template.declareParameter typed first).toList :=
        notMem_declareParameter typed (shaped first List.mem_cons_self)
          (by decide) (by decide) (by decide)
      have restFree : ')' ∉ parameterText typed (second :: rest) :=
        notMem_parameterText typed fun parameter member =>
          shaped parameter (List.mem_cons_of_mem _ member)
      rw [parameterText_cons_cons]
      simp [free, restFree]

/-- The pieces of a written parameter list read back, one name a piece. -/
theorem mapM_parameter?_pieces {parameters : List String} (typed : Bool)
    (nonempty : parameters ≠ [])
    (shaped : ∀ parameter ∈ parameters, Text.isIdentifier parameter = true) :
    (Text.pieces ',' (parameterText typed parameters)).mapM parameter? = some parameters := by
  match parameters, nonempty, shaped with
  | [only], _, shaped =>
      have onlyShaped := shaped only List.mem_cons_self
      have free : ',' ∉ (Template.declareParameter typed only).toList :=
        notMem_declareParameter typed onlyShaped (by decide) (by decide) (by decide)
      have text : parameterText typed [only] =
          (Template.declareParameter typed only).toList := by
        simp [parameterText]
      rw [text, Text.pieces_of_not_mem free, List.mapM_cons,
        parameter?_declareParameter typed onlyShaped]
      rfl
  | first :: second :: rest, _, shaped =>
      have firstShaped := shaped first List.mem_cons_self
      have free : ',' ∉ (Template.declareParameter typed first).toList :=
        notMem_declareParameter typed firstShaped (by decide) (by decide) (by decide)
      have others := mapM_parameter?_pieces typed (List.cons_ne_nil second rest)
        fun parameter member => shaped parameter (List.mem_cons_of_mem _ member)
      -- The space after the comma belongs to the next piece, which reads the same without.
      obtain ⟨next, further, cut, cutAfterSpace⟩ :=
        @Text.pieces_cons_of_ne ',' ' ' (by decide) (parameterText typed (second :: rest))
      rw [cut, List.mapM_cons] at others
      rw [parameterText_cons_cons, Text.pieces_append_separator, Text.pieces_of_not_mem free,
        cutAfterSpace, List.singleton_append, List.mapM_cons, List.mapM_cons, parameter?_space,
        others, parameter?_declareParameter typed firstShaped]
      rfl

theorem parameters?_parameterText {parameters : List String} (typed : Bool)
    (distinct : parameters.Nodup)
    (shaped : ∀ parameter ∈ parameters, Text.isIdentifier parameter = true) :
    parameters? (parameterText typed parameters) = some parameters := by
  unfold parameters?
  by_cases nonempty : parameters = []
  · subst nonempty
    rfl
  · have readBack := mapM_parameter?_pieces typed nonempty shaped
    have emptyRefused : (Text.pieces ',' []).mapM parameter? = none := by decide
    by_cases empty : parameterText typed parameters = []
    · rw [empty, emptyRefused] at readBack
      contradiction
    · rw [if_neg empty, readBack]
      simp [distinct]

/-! ## The written function read back -/

theorem takeWhile_parameterText {parameters : List String} (typed : Bool)
    (following : List Char)
    (shaped : ∀ parameter ∈ parameters, Text.isIdentifier parameter = true) :
    (parameterText typed parameters ++ ')' :: following).takeWhile (· ≠ ')') =
        parameterText typed parameters ∧
      (parameterText typed parameters ++ ')' :: following).dropWhile (· ≠ ')') =
        ')' :: following := by
  have free := notMem_parameterText typed shaped
  have inside : ∀ c ∈ parameterText typed parameters, decide (c ≠ ')') = true := by
    intro c member
    rw [decide_eq_true_eq]
    rintro rfl
    exact free member
  constructor
  · rw [List.takeWhile_append_of_pos inside]
    simp
  · rw [List.dropWhile_append_of_pos inside]
    simp

theorem afterAnnotation?_arrow (typed : Bool) (body : List Char) :
    ∃ arrow,
      afterAnnotation? ((if typed then ": string" else "").toList ++
        (" => ".toList ++ '\x60' :: body)) = some arrow ∧
      literalBody? arrow = some body := by
  cases typed with
  | false => exact ⟨"=> ".toList ++ '\x60' :: body, rfl, rfl⟩
  | true => exact ⟨" => ".toList ++ '\x60' :: body, rfl, rfl⟩

def literalText (template : Template) : List Char :=
  (String.join (template.segments.map
    (Template.literalSegment template.parameters))).toList

theorem toList_arrowFunction_append (template : Template) (typed : Bool)
    (following : List Char) :
    (template.arrowFunction typed).toList ++ following =
      '(' :: (parameterText typed template.parameters ++
        ')' :: ((if typed then ": string" else "").toList ++ (" => ".toList ++
          '\x60' :: (literalText template ++ '\x60' :: following)))) := by
  simp [Template.arrowFunction, Template.literal, parameterText, literalText]

/-- The arrow function of a template reads back with the template's parameters and its
literal, whatever follows it. -/
theorem read?_arrowFunction (template : Template) (typed : Bool) (following : List Char)
    (distinct : template.parameters.Nodup)
    (shaped : ∀ parameter ∈ template.parameters, Text.isIdentifier parameter = true) :
    ArrowFunction.read? ((template.arrowFunction typed).toList ++ following) =
      some ⟨template.parameters, literalText template ++ '\x60' :: following⟩ := by
  obtain ⟨arrow, annotated, opened⟩ := afterAnnotation?_arrow typed
    (literalText template ++ '\x60' :: following)
  obtain ⟨inside, outside⟩ := takeWhile_parameterText typed
    ((if typed then ": string" else "").toList ++ (" => ".toList ++
      '\x60' :: (literalText template ++ '\x60' :: following))) shaped
  rw [toList_arrowFunction_append, ArrowFunction.read?, inside, outside,
    parameters?_parameterText typed distinct shaped]
  simp only [Option.bind_eq_bind, Option.bind_some, List.tail?_cons, annotated, opened,
    Option.pure_def]

/-- Distinct names can be bound to any values. -/
theorem exists_binds {names values : List String}
    (distinct : names.Nodup)
    (sameCount : values.length = names.length) :
    ∃ environment, Binds environment names values := by
  refine ⟨fun name => (names.zip values).lookup name, ?_⟩
  intro position name value nameAt valueAt
  obtain ⟨inside, rfl⟩ := List.getElem?_eq_some_iff.mp nameAt
  have first : names.idxOf names[position] = position := distinct.idxOf_getElem position inside
  change (names.zip values).lookup names[position] = some value
  rw [Template.lookup_zip sameCount, if_pos (List.getElem_mem inside), first, valueAt]

end Script

namespace Template

/-- Calling the written function is rendering the template. For distinct parameters
shaped like identifiers, typed or not, and as many arguments as parameters: the text is
an arrow function that declares the template's parameters, its body is one literal that
ends with the text, and with each parameter bound to the argument at its position the
literal is worth what rendering with the arguments gives. -/
theorem evaluate_arrowFunction (template : Template) (typed : Bool)
    (arguments : List Identifier)
    (distinct : template.parameters.Nodup)
    (shaped : ∀ parameter ∈ template.parameters, Text.isIdentifier parameter = true)
    (sameCount : arguments.length = template.arity) :
    ∃ function text,
      Script.ArrowFunction.read? (template.arrowFunction typed).toList = some function ∧
      function.parameters = template.parameters ∧
      template.render arguments = .ok text ∧
      (∃ environment, Script.Binds environment template.parameters
        (arguments.map Identifier.text)) ∧
      ∀ environment,
        Script.Binds environment template.parameters (arguments.map Identifier.text) →
        Script.evaluateText environment function.body = some (text.toList, []) := by
  have valueCount : (arguments.map Identifier.text).length = template.parameters.length := by
    rw [List.length_map]
    exact sameCount
  have readBack := Script.read?_arrowFunction template typed [] distinct shaped
  rw [List.append_nil] at readBack
  have rendered : template.render arguments =
      .ok (template.instantiate (arguments.map Identifier.text)) := by
    unfold render checkArity
    rw [if_pos sameCount]
    rfl
  refine ⟨_, _, readBack, rfl, rendered, Script.exists_binds distinct valueCount, ?_⟩
  intro environment binds
  exact Script.evaluateText_segments template.segments [] shaped binds valueCount

/-- A dollar sign before a hole, a brace, a backtick, a backslash and both kinds of
line end come through, and the arguments may be the parameters the other way round. -/
theorem evaluate_arrowFunction_sample :
    let template : Template := ⟨["a", "b"],
      [.literal "$", .identifierRef "a", .literal "$\x7b\x60\\\r\n\r", .identifierRef "c"]⟩
    let arguments : List Identifier := [⟨"b", by decide⟩, ⟨"a", by decide⟩]
    template.parameters.Nodup ∧
    (∀ parameter ∈ template.parameters, Text.isIdentifier parameter = true) ∧
    arguments.length = template.arity ∧
    ∃ function,
      Script.ArrowFunction.read? (template.arrowFunction true).toList = some function ∧
      function.parameters = ["a", "b"] ∧
      ∀ environment, Script.Binds environment ["a", "b"] ["b", "a"] →
        Script.evaluateText environment function.body =
          some ("$b$\x7b\x60\\\r\n\rc".toList, []) := by
  intro template arguments
  have distinct : template.parameters.Nodup := by decide
  have shaped : ∀ parameter ∈ template.parameters, Text.isIdentifier parameter = true := by
    decide
  have sameCount : arguments.length = template.arity := rfl
  obtain ⟨function, text, readBack, parametersEq, rendered, _, evaluated⟩ :=
    evaluate_arrowFunction template true arguments distinct shaped sameCount
  cases rendered
  exact ⟨distinct, shaped, sameCount, function, readBack, parametersEq, evaluated⟩

end Template

end SourceQuote

import SourceQuote.Json.Reader
import SourceQuote.Json.Writer

/-!
Contract: a written JSON value is read back as itself.

Owns: the round trip of both layouts, for every value whose numbers are natural.

## One writer for both layouts

The compact and the indented text of a value differ only in the blanks between tokens.
`Layout` holds those blanks, `Layout.write` is the common writer, and the two writers of
the library are shown to be it. Reading is proved once, for every layout. Each reading law
lets any text follow, since the reader returns what it did not consume; only a number
asks that what follows could not continue it.

Does not own: what values stand for; see the modules on storage.
-/

namespace SourceQuote.Json

/-! ## Strings -/

theorem hexValue?_hexDigit : ∀ value < 16, hexValue? (hexDigit value) = some value := by
  decide

theorem readUnits_escapeChar (c : Char) (following : List Char) :
    readUnits (escapeChar c ++ following) =
      (readUnits following).map fun (units, rest) => (.char c :: units, rest) := by
  have again (value : Char) : ((readUnits following).bind fun (units, rest) =>
      some (StringUnit.char value :: units, rest)) =
      (readUnits following).map fun (units, rest) => (StringUnit.char value :: units, rest) := by
    cases readUnits following <;> rfl
  unfold escapeChar
  split
  · next same => subst same; exact again _
  split
  · next same => subst same; exact again _
  split
  · next same => subst same; exact again _
  split
  · next same => subst same; exact again _
  split
  · next same => subst same; exact again _
  split
  · next same => subst same; exact again _
  split
  · next same => subst same; exact again _
  split
  · next control =>
      have high := hexValue?_hexDigit (c.toNat / 16) (by omega)
      have low := hexValue?_hexDigit (c.toNat % 16) (by omega)
      have code : hexCode? '0' '0' (hexDigit (c.toNat / 16)) (hexDigit (c.toNat % 16)) =
          some c.toNat := by
        have zero : hexValue? '0' = some 0 := by decide
        simp only [hexCode?, zero, high, low, Option.bind_eq_bind, Option.bind_some,
          Option.pure_def]
        congr 1
        omega
      have unit : StringUnit.ofCode c.toNat = .char c := by
        rw [StringUnit.ofCode, if_neg (by omega), Char.ofNat_toNat]
      simp only [List.cons_append, List.nil_append, readUnits, code, Option.bind_eq_bind,
        Option.bind_some, unit]
      exact again c
  · next notQuote notBackslash _ _ _ _ _ visible =>
      rw [List.cons_append, List.nil_append, readUnits.eq_def]
      split
      · next nothing => cases nothing
      · next isQuote => cases isQuote; exact absurd rfl notQuote
      · next isEscape => cases isEscape; exact absurd rfl notBackslash
      · next isEscape => cases isEscape; exact absurd rfl notBackslash
      · next same =>
        cases same
        rw [if_neg (by simp [notBackslash, visible])]
        exact again _
theorem readUnits_flatMap (chars following : List Char) :
    readUnits (chars.flatMap escapeChar ++ '"' :: following) =
      some (chars.map .char, following) := by
  induction chars with
  | nil => rfl
  | cons c rest inductionHypothesis =>
      rw [List.flatMap_cons, List.append_assoc, readUnits_escapeChar, inductionHypothesis]
      rfl

theorem charsOfUnits_map (chars : List Char) :
    charsOfUnits (chars.map .char) = some chars := by
  induction chars with
  | nil => rfl
  | cons c rest inductionHypothesis =>
      rw [List.map_cons, charsOfUnits, inductionHypothesis]
      rfl

theorem readString_tail (value : Option String) (following : List Char) :
    ∃ tail, writeString value ++ following = '"' :: tail ∧
      readString tail = some (value, following) := by
  cases value with
  | none => exact ⟨_, rfl, rfl⟩
  | some text =>
      refine ⟨text.toList.flatMap escapeChar ++ '"' :: following, ?_, ?_⟩
      · simp [writeString]
      · rw [readString, readUnits_flatMap]
        simp only [Option.map_some, charsOfUnits_map, String.ofList_toList]

/-! ## Numbers -/

def EndsNumber (following : List Char) : Prop :=
  ∀ c ∈ following.head?, c.isDigit = false ∧ c ≠ '.' ∧ c ≠ 'e' ∧ c ≠ 'E'

theorem naturalOfDigits_writeNatural (value : Nat) :
    naturalOfDigits (writeNatural value) = value := by
  have read := Nat.ofDigitChars_ten_toDigits (n := value)
  rw [Nat.ofDigitChars_eq_foldl] at read
  exact read

theorem isDigit_of_mem_writeNatural {value : Nat} {c : Char} (member : c ∈ writeNatural value) :
    c.isDigit = true :=
  Nat.isDigit_of_mem_toDigits (by decide) (by decide) member

theorem exists_digit_writeNatural (value : Nat) :
    ∃ c rest, writeNatural value = c :: rest ∧ c.isDigit = true := by
  cases written : writeNatural value with
  | nil => exact absurd written Nat.toDigits_ne_nil
  | cons c rest =>
      have member : c ∈ writeNatural value := by simp [written]
      exact ⟨c, rest, rfl, isDigit_of_mem_writeNatural member⟩

theorem eq_zero_of_head?_writeNatural (value : Nat)
    (leading : (writeNatural value).head? = some '0') : value = 0 := by
  induction value using Nat.strongRecOn with
  | _ value inductionHypothesis =>
      unfold writeNatural at *
      by_cases small : value < 10
      · rw [Nat.toDigits_of_lt_base small, List.head?_cons, Option.some_inj] at leading
        have onlyZero : ∀ digit < 10, digit.digitChar = '0' → digit = 0 := by decide
        exact onlyZero value small leading
      · rw [Nat.toDigits_of_base_le (by decide) (by omega), List.head?_append,
          List.head?_eq_some_head Nat.toDigits_ne_nil, Option.some_or,
          ← List.head?_eq_some_head] at leading
        have shorter := inductionHypothesis (value / 10) (by omega) leading
        omega

theorem readWhole_writeNatural (value : Nat) {following : List Char}
    (ends : EndsNumber following) :
    readWhole (writeNatural value ++ following) = some (writeNatural value, following) := by
  have digits : ∀ c ∈ writeNatural value, c.isDigit = true :=
    fun _ => isDigit_of_mem_writeNatural
  have stops : following.takeWhile Char.isDigit = [] ∧
      following.dropWhile Char.isDigit = following := by
    cases following with
    | nil => exact ⟨rfl, rfl⟩
    | cons c rest => simp [(ends c rfl).1]
  have taken : (writeNatural value ++ following).takeWhile Char.isDigit = writeNatural value := by
    rw [List.takeWhile_append_of_pos digits, stops.1, List.append_nil]
  have dropped : (writeNatural value ++ following).dropWhile Char.isDigit = following := by
    rw [List.dropWhile_append_of_pos digits, stops.2]
  have nonempty : writeNatural value ≠ [] := Nat.toDigits_ne_nil
  have noZeroAhead :
      ¬((writeNatural value).head? = some '0' ∧ (writeNatural value).length ≠ 1) := by
    rintro ⟨leading, long⟩
    rw [eq_zero_of_head?_writeNatural value leading] at long
    exact long rfl
  rw [readWhole, readDigits, taken, dropped, if_neg nonempty, Option.bind_some]
  exact if_neg noZeroAhead

theorem readNumber_writeNatural (value : Nat) {following : List Char}
    (ends : EndsNumber following) :
    readNumber (writeNatural value ++ following) = some (.natural value, following) := by
  have whole := readWhole_writeNatural value ends
  have noMinus : ∀ rest, writeNatural value ++ following ≠ '-' :: rest := by
    intro rest same
    obtain ⟨c, others, written, digit⟩ := exists_digit_writeNatural value
    rw [written, List.cons_append] at same
    cases same
    exact absurd digit (by decide)
  have noFraction : readFraction following = some ([], following) := by
    unfold readFraction
    split
    · next rest => exact absurd rfl (ends '.' rfl).2.1
    · rfl
  have noExponent : readExponent following = some ([], following) := by
    unfold readExponent
    split
    · next c rest =>
        have plain := ends c rfl
        rw [if_neg (by simp [plain])]
    · rfl
  unfold readNumber
  split
  next minus unsigned cut =>
  split at cut
  · next rest same => exact absurd same (noMinus rest)
  · cases cut
    simp [whole, noFraction, noExponent, naturalOfDigits_writeNatural]

/-! ## Values in either layout -/

/-- The blanks that stand between the tokens of a written value. -/
structure Layout where
  /-- In front of an element, a member or a closing bracket, by its depth. -/
  gap : Nat → List Char
  afterColon : List Char
  gap_blank : ∀ level, ∀ c ∈ gap level, isSpace c = true
  afterColon_blank : ∀ c ∈ afterColon, isSpace c = true

namespace Layout

def compact : Layout where
  gap _ := []
  afterColon := []
  gap_blank := by simp
  afterColon_blank := by simp

def indented : Layout where
  gap := newLine
  afterColon := [' ']
  gap_blank := by
    intro level c member
    simp only [newLine, List.mem_cons, List.mem_replicate] at member
    rcases member with rfl | ⟨_, rfl⟩ <;> rfl
  afterColon_blank := by simp [isSpace]

mutual

def write (layout : Layout) (level : Nat) : Json → List Char
  | .null => "null".toList
  | .bool true => "true".toList
  | .bool false => "false".toList
  | .natural value => writeNatural value
  | .number lexeme => lexeme
  | .string value => writeString value
  | .array [] => ['[', ']']
  | .array (element :: rest) =>
      '[' :: (layout.gap (level + 1) ++ (layout.write (level + 1) element ++
        layout.writeElements level rest))
  | .object [] => ['\x7b', '\x7d']
  | .object ((key, value) :: rest) =>
      '\x7b' :: (layout.gap (level + 1) ++ (writeString key ++
        ':' :: (layout.afterColon ++ (layout.write (level + 1) value ++
          layout.writeMembers level rest))))

def writeElements (layout : Layout) (level : Nat) : List Json → List Char
  | [] => layout.gap level ++ [']']
  | element :: rest =>
      ',' :: (layout.gap (level + 1) ++ (layout.write (level + 1) element ++
        layout.writeElements level rest))

def writeMembers (layout : Layout) (level : Nat) : List (Option String × Json) → List Char
  | [] => layout.gap level ++ ['\x7d']
  | (key, value) :: rest =>
      ',' :: (layout.gap (level + 1) ++ (writeString key ++
        ':' :: (layout.afterColon ++ (layout.write (level + 1) value ++
          layout.writeMembers level rest))))

end

mutual

theorem write_compact (level : Nat) : ∀ value, compact.write level value = Json.write value
  | .null => rfl
  | .bool true => rfl
  | .bool false => rfl
  | .natural _ => rfl
  | .number _ => rfl
  | .string _ => rfl
  | .array [] => rfl
  | .array (element :: rest) => by
      change '[' :: (compact.write (level + 1) element ++ compact.writeElements level rest) =
        '[' :: Json.writeElements (element :: rest)
      rw [write_compact, writeElements_compact]
  | .object [] => rfl
  | .object ((key, value) :: rest) => by
      change '\x7b' :: (writeString key ++ ':' :: (compact.write (level + 1) value ++
        compact.writeMembers level rest)) = '\x7b' :: Json.writeMembers ((key, value) :: rest)
      rw [write_compact, writeMembers_compact]

theorem writeElements_compact (level : Nat) (element : Json) : ∀ rest,
    Json.write element ++ compact.writeElements level rest =
      Json.writeElements (element :: rest)
  | [] => rfl
  | next :: rest => by
      change Json.write element ++ ',' :: (compact.write (level + 1) next ++
        compact.writeElements level rest) =
          Json.write element ++ ',' :: Json.writeElements (next :: rest)
      rw [write_compact, writeElements_compact]

theorem writeMembers_compact (level : Nat) (key : Option String) (value : Json) : ∀ rest,
    writeString key ++ ':' :: (Json.write value ++ compact.writeMembers level rest) =
      Json.writeMembers ((key, value) :: rest)
  | [] => rfl
  | (nextKey, nextValue) :: rest => by
      change writeString key ++ ':' :: (Json.write value ++ ',' :: (writeString nextKey ++
        ':' :: (compact.write (level + 1) nextValue ++ compact.writeMembers level rest))) =
          writeString key ++ ':' :: (Json.write value ++
            ',' :: Json.writeMembers ((nextKey, nextValue) :: rest))
      rw [write_compact, writeMembers_compact]

end

mutual

theorem write_indented (level : Nat) :
    ∀ value, indented.write level value = writeIndented level value
  | .null => rfl
  | .bool true => rfl
  | .bool false => rfl
  | .natural _ => rfl
  | .number _ => rfl
  | .string _ => rfl
  | .array [] => rfl
  | .array (element :: rest) => by
      change '[' :: (newLine (level + 1) ++ (indented.write (level + 1) element ++
        indented.writeElements level rest)) =
          '[' :: writeIndentedElements level (element :: rest)
      rw [write_indented, writeElements_indented]
  | .object [] => rfl
  | .object ((key, value) :: rest) => by
      change '\x7b' :: (newLine (level + 1) ++ (writeString key ++ ':' :: ' ' ::
        (indented.write (level + 1) value ++ indented.writeMembers level rest))) =
          '\x7b' :: writeIndentedMembers level ((key, value) :: rest)
      rw [write_indented, writeMembers_indented]

theorem writeElements_indented (level : Nat) (element : Json) : ∀ rest,
    newLine (level + 1) ++ (writeIndented (level + 1) element ++
        indented.writeElements level rest) =
      writeIndentedElements level (element :: rest)
  | [] => (List.append_assoc ..).symm
  | next :: rest => by
      change newLine (level + 1) ++ (writeIndented (level + 1) element ++
        ',' :: (newLine (level + 1) ++ (indented.write (level + 1) next ++
          indented.writeElements level rest))) =
            newLine (level + 1) ++ writeIndented (level + 1) element ++
              ',' :: writeIndentedElements level (next :: rest)
      rw [write_indented, writeElements_indented, List.append_assoc]

theorem writeMembers_indented (level : Nat) (key : Option String) (value : Json) : ∀ rest,
    newLine (level + 1) ++ (writeString key ++ ':' :: ' ' ::
        (writeIndented (level + 1) value ++ indented.writeMembers level rest)) =
      writeIndentedMembers level ((key, value) :: rest)
  | [] => (List.append_assoc ..).symm
  | (nextKey, nextValue) :: rest => by
      change newLine (level + 1) ++ (writeString key ++ ':' :: ' ' ::
        (writeIndented (level + 1) value ++ ',' :: (newLine (level + 1) ++
          (writeString nextKey ++ ':' :: ' ' :: (indented.write (level + 1) nextValue ++
            indented.writeMembers level rest))))) =
              newLine (level + 1) ++ writeString key ++ ':' :: ' ' ::
                (writeIndented (level + 1) value ++
                  ',' :: writeIndentedMembers level ((nextKey, nextValue) :: rest))
      rw [write_indented, writeMembers_indented, List.append_assoc]

end

end Layout

/-! ## Reading a written value -/

mutual

/-- Whether a value holds no number that is kept by its characters. -/
def Plain : Json → Prop
  | .number _ => False
  | .array elements => PlainElements elements
  | .object members => PlainMembers members
  | _ => True

def PlainElements : List Json → Prop
  | [] => True
  | element :: rest => Plain element ∧ PlainElements rest

def PlainMembers : List (Option String × Json) → Prop
  | [] => True
  | (_, value) :: rest => Plain value ∧ PlainMembers rest

end

mutual

def fuel : Json → Nat
  | .array elements => 1 + fuelElements elements
  | .object members => 1 + fuelMembers members
  | _ => 1

def fuelElements : List Json → Nat
  | [] => 1
  | element :: rest => 1 + fuel element + fuelElements rest

def fuelMembers : List (Option String × Json) → Nat
  | [] => 1
  | (_, value) :: rest => 1 + fuel value + fuelMembers rest

end

theorem skipSpace_append {blanks : List Char} (blank : ∀ c ∈ blanks, isSpace c = true)
    (following : List Char) : skipSpace (blanks ++ following) = skipSpace following :=
  List.dropWhile_append_of_pos blank

theorem skipSpace_cons {c : Char} (solid : isSpace c = false) (rest : List Char) :
    skipSpace (c :: rest) = c :: rest :=
  List.dropWhile_cons_of_neg (by simp [solid])

theorem endsNumber_cons {c : Char} (rest : List Char)
    (ends : c.isDigit = false ∧ c ≠ '.' ∧ c ≠ 'e' ∧ c ≠ 'E') : EndsNumber (c :: rest) := by
  intro other isHead
  cases isHead
  exact ends

theorem endsNumber_append {blanks : List Char} (blank : ∀ c ∈ blanks, isSpace c = true)
    {following : List Char} (ends : EndsNumber following) : EndsNumber (blanks ++ following) := by
  cases blanks with
  | nil => exact ends
  | cons c rest =>
      have isBlank := blank c List.mem_cons_self
      simp only [isSpace, Bool.or_eq_true, decide_eq_true_eq] at isBlank
      apply endsNumber_cons
      rcases isBlank with ((rfl | rfl) | rfl) | rfl <;> decide

namespace Layout

/-- A written value starts with a character that is no blank and closes nothing. -/
theorem exists_cons_write (layout : Layout) (level : Nat) {value : Json} (plain : value.Plain) :
    ∃ c rest, layout.write level value = c :: rest ∧ isSpace c = false ∧ c ≠ ']' := by
  match value with
  | .null => exact ⟨_, _, rfl, rfl, by decide⟩
  | .bool true => exact ⟨_, _, rfl, rfl, by decide⟩
  | .bool false => exact ⟨_, _, rfl, rfl, by decide⟩
  | .natural value =>
      obtain ⟨c, rest, written, digit⟩ := exists_digit_writeNatural value
      refine ⟨c, rest, written, ?_, ?_⟩
      · rw [Bool.eq_false_iff]
        intro isBlank
        simp only [isSpace, Bool.or_eq_true, decide_eq_true_eq] at isBlank
        rcases isBlank with ((rfl | rfl) | rfl) | rfl <;> exact absurd digit (by decide)
      · rintro rfl
        exact absurd digit (by decide)
  | .string none => exact ⟨_, _, rfl, rfl, by decide⟩
  | .string (some _) => exact ⟨_, _, rfl, rfl, by decide⟩
  | .array [] => exact ⟨_, _, rfl, rfl, by decide⟩
  | .array (_ :: _) => exact ⟨_, _, rfl, rfl, by decide⟩
  | .object [] => exact ⟨_, _, rfl, rfl, by decide⟩
  | .object (_ :: _) => exact ⟨_, _, rfl, rfl, by decide⟩

theorem skipSpace_write (layout : Layout) (level : Nat) {value : Json} (plain : value.Plain)
    (following : List Char) :
    skipSpace (layout.write level value ++ following) = layout.write level value ++ following := by
  obtain ⟨c, rest, starts, solid, _⟩ := layout.exists_cons_write level plain
  rw [starts, List.cons_append, skipSpace_cons solid]

theorem readValue_digits {value fuel : Nat} {following : List Char}
    (ends : EndsNumber following) :
    readValue (fuel + 1) (writeNatural value ++ following) = some (.natural value, following) := by
  have number := readNumber_writeNatural value ends
  obtain ⟨c, rest, written, digit⟩ := exists_digit_writeNatural value
  rw [written, List.cons_append] at number ⊢
  unfold readValue
  split
  all_goals first
    | exact number
    | next same => cases same; exact absurd digit (by decide)

theorem readValue_array {fuel : Nat} {chars text rest : List Char} {elements : List Json}
    (skipped : skipSpace chars = text) (opens : ∀ rest, text ≠ ']' :: rest)
    (read : readElements fuel text = some (elements, rest)) :
    readValue (fuel + 1) ('[' :: chars) = some (.array elements, rest) := by
  simp only [readValue, skipped, read, Option.map_some]

theorem readValue_object {fuel : Nat} {chars text rest : List Char}
    {members : List (Option String × Json)}
    (skipped : skipSpace chars = text) (opens : ∀ rest, text ≠ '\x7d' :: rest)
    (read : readMembers fuel text = some (members, rest)) :
    readValue (fuel + 1) ('\x7b' :: chars) = some (.object members, rest) := by
  simp only [readValue, skipped, read, Option.map_some]

theorem readElements_last {fuel : Nat} {chars rest following : List Char} {element : Json}
    (read : readValue fuel chars = some (element, rest))
    (closes : skipSpace rest = ']' :: following) :
    readElements (fuel + 1) chars = some ([element], following) := by
  simp only [readElements, read, closes, Option.bind_eq_bind, Option.bind_some]
  rfl

theorem readElements_more {fuel : Nat} {chars rest more text following : List Char}
    {element : Json} {elements : List Json}
    (read : readValue fuel chars = some (element, rest))
    (continues : skipSpace rest = ',' :: more)
    (skipped : skipSpace more = text)
    (others : readElements fuel text = some (elements, following)) :
    readElements (fuel + 1) chars = some (element :: elements, following) := by
  simp only [readElements, read, continues, skipped, others, Option.bind_eq_bind,
    Option.bind_some]
  rfl

theorem readMembers_last {fuel : Nat} {key : Option String} {text rest following : List Char}
    {value : Json} (layout : Layout)
    (solid : skipSpace text = text)
    (read : readValue fuel text = some (value, rest))
    (closes : skipSpace rest = '\x7d' :: following) :
    readMembers (fuel + 1) (writeString key ++ ':' :: (layout.afterColon ++ text)) =
      some ([(key, value)], following) := by
  obtain ⟨tail, starts, readKey⟩ := readString_tail key (':' :: (layout.afterColon ++ text))
  have colon := skipSpace_cons (c := ':') rfl (layout.afterColon ++ text)
  have skipped := skipSpace_append layout.afterColon_blank text
  rw [starts]
  simp only [readMembers, readKey, colon, skipped, solid, read, closes, Option.bind_eq_bind,
    Option.bind_some]
  rfl

theorem readMembers_more {fuel : Nat} {key : Option String}
    {text rest more others following : List Char} {value : Json}
    {members : List (Option String × Json)} (layout : Layout)
    (solid : skipSpace text = text)
    (read : readValue fuel text = some (value, rest))
    (continues : skipSpace rest = ',' :: more)
    (skipped : skipSpace more = others)
    (readOthers : readMembers fuel others = some (members, following)) :
    readMembers (fuel + 1) (writeString key ++ ':' :: (layout.afterColon ++ text)) =
      some ((key, value) :: members, following) := by
  obtain ⟨tail, starts, readKey⟩ := readString_tail key (':' :: (layout.afterColon ++ text))
  have colon := skipSpace_cons (c := ':') rfl (layout.afterColon ++ text)
  have skippedColon := skipSpace_append layout.afterColon_blank text
  rw [starts]
  simp only [readMembers, readKey, colon, skippedColon, solid, read, continues, skipped,
    readOthers, Option.bind_eq_bind, Option.bind_some]
  rfl

theorem skipSpace_writeString (key : Option String) (following : List Char) :
    skipSpace (writeString key ++ following) = writeString key ++ following := by
  obtain ⟨tail, starts, _⟩ := readString_tail key following
  rw [starts, skipSpace_cons rfl]

mutual

/-- A written value is read back, whatever follows it. -/
theorem readValue_write (layout : Layout) : ∀ (value : Json) (level fuel : Nat)
    (following : List Char), value.Plain → value.fuel ≤ fuel → EndsNumber following →
    readValue fuel (layout.write level value ++ following) = some (value, following)
  | _, _, 0, _, _, enough, _ => by
      exfalso
      unfold Json.fuel at enough
      split at enough <;> omega
  | .null, _, _ + 1, _, _, _, _ => rfl
  | .bool true, _, _ + 1, _, _, _, _ => rfl
  | .bool false, _, _ + 1, _, _, _, _ => rfl
  | .natural _, _, _ + 1, _, _, _, ends => readValue_digits ends
  | .string text, _, _ + 1, following, _, _, _ => by
      obtain ⟨tail, starts, read⟩ := readString_tail text following
      change readValue _ (writeString text ++ following) = _
      rw [starts]
      change (readString tail).map (fun (text, rest) => (Json.string text, rest)) = _
      rw [read]
      rfl
  | .array [], _, _ + 1, _, _, _, _ => rfl
  | .array (element :: rest), level, fuel + 1, following, plain, enough, _ => by
      have enough : 1 + (1 + element.fuel + fuelElements rest) ≤ fuel + 1 := enough
      obtain ⟨fuel, rfl⟩ := Nat.exists_eq_add_of_le' (show 1 ≤ fuel by omega)
      have elements := layout.readElements_write rest level fuel element
        (layout.write (level + 1) element) following plain.2 (by omega)
        fun after ends =>
          layout.readValue_write element (level + 1) fuel after plain.1 (by omega) ends
      have opens : ∀ rest', layout.write (level + 1) element ++
          (layout.writeElements level rest ++ following) ≠ ']' :: rest' := by
        intro rest' same
        obtain ⟨c, tail, starts, _, noBracket⟩ := layout.exists_cons_write (level + 1) plain.1
        rw [starts] at same
        cases same
        exact noBracket rfl
      change readValue _ ('[' :: (layout.gap (level + 1) ++ (layout.write (level + 1) element ++
        layout.writeElements level rest) ++ following)) = _
      refine readValue_array ?_ opens elements
      rw [List.append_assoc, skipSpace_append (layout.gap_blank _), List.append_assoc,
        layout.skipSpace_write _ plain.1]
  | .object [], _, _ + 1, _, _, _, _ => rfl
  | .object ((key, value) :: rest), level, fuel + 1, following, plain, enough, _ => by
      have enough : 1 + (1 + value.fuel + fuelMembers rest) ≤ fuel + 1 := enough
      obtain ⟨fuel, rfl⟩ := Nat.exists_eq_add_of_le' (show 1 ≤ fuel by omega)
      have members := layout.readMembers_write rest level fuel key value
        (layout.write (level + 1) value) following plain.2 (by omega)
        (fun after => layout.skipSpace_write (level + 1) plain.1 after)
        fun after ends =>
          layout.readValue_write value (level + 1) fuel after plain.1 (by omega) ends
      obtain ⟨tail, starts, _⟩ := readString_tail key (':' :: (layout.afterColon ++
        (layout.write (level + 1) value ++ (layout.writeMembers level rest ++ following))))
      change readValue _ ('\x7b' :: (layout.gap (level + 1) ++ (writeString key ++
        ':' :: (layout.afterColon ++ (layout.write (level + 1) value ++
          layout.writeMembers level rest))) ++ following)) = _
      refine readValue_object ?_ ?_ members
      · simp only [List.append_assoc, List.cons_append]
        rw [skipSpace_append (layout.gap_blank _), skipSpace_writeString]
      · intro rest' same
        rw [starts] at same
        cases same

theorem readElements_write (layout : Layout) : ∀ (rest : List Json) (level fuel : Nat)
    (element : Json) (text following : List Char), PlainElements rest →
    fuelElements rest ≤ fuel →
    (∀ after, EndsNumber after → readValue fuel (text ++ after) = some (element, after)) →
    readElements (fuel + 1) (text ++ (layout.writeElements level rest ++ following)) =
      some (element :: rest, following)
  | [], level, fuel, element, text, following, _, _, read => by
      have closes : EndsNumber (layout.gap level ++ ']' :: following) :=
        endsNumber_append (layout.gap_blank level) (endsNumber_cons _ (by decide))
      have rewritten : layout.writeElements level [] ++ following =
          layout.gap level ++ ']' :: following := by
        change layout.gap level ++ [']'] ++ following = _
        rw [List.append_assoc]
        rfl
      rw [rewritten]
      refine readElements_last (read _ closes) ?_
      rw [skipSpace_append (layout.gap_blank level), skipSpace_cons rfl]
  | next :: rest, level, fuel, element, text, following, plain, enough, read => by
      have enough : 1 + next.fuel + fuelElements rest ≤ fuel := enough
      obtain ⟨fuel, rfl⟩ := Nat.exists_eq_add_of_le' (show 1 ≤ fuel by omega)
      have others := layout.readElements_write rest level fuel next
        (layout.write (level + 1) next) following plain.2 (by omega)
        fun after ends =>
          layout.readValue_write next (level + 1) fuel after plain.1 (by omega) ends
      have rewritten : layout.writeElements level (next :: rest) ++ following =
          ',' :: (layout.gap (level + 1) ++ (layout.write (level + 1) next ++
            (layout.writeElements level rest ++ following))) := by
        change ',' :: (layout.gap (level + 1) ++ (layout.write (level + 1) next ++
          layout.writeElements level rest) ++ following) = _
        rw [List.append_assoc, List.append_assoc]
      rw [rewritten]
      refine readElements_more (read _ (endsNumber_cons _ (by decide))) (skipSpace_cons rfl _)
        ?_ others
      rw [skipSpace_append (layout.gap_blank _), layout.skipSpace_write _ plain.1]

theorem readMembers_write (layout : Layout) : ∀ (rest : List (Option String × Json))
    (level fuel : Nat) (key : Option String) (value : Json) (text following : List Char),
    PlainMembers rest → fuelMembers rest ≤ fuel →
    (∀ after, skipSpace (text ++ after) = text ++ after) →
    (∀ after, EndsNumber after → readValue fuel (text ++ after) = some (value, after)) →
    readMembers (fuel + 1) (writeString key ++ ':' :: (layout.afterColon ++
        (text ++ (layout.writeMembers level rest ++ following)))) =
      some ((key, value) :: rest, following)
  | [], level, fuel, key, value, text, following, _, _, solid, read => by
      have closes : EndsNumber (layout.gap level ++ '\x7d' :: following) :=
        endsNumber_append (layout.gap_blank level) (endsNumber_cons _ (by decide))
      have rewritten : layout.writeMembers level [] ++ following =
          layout.gap level ++ '\x7d' :: following := by
        change layout.gap level ++ ['\x7d'] ++ following = _
        rw [List.append_assoc]
        rfl
      rw [rewritten]
      refine readMembers_last layout (solid _) (read _ closes) ?_
      rw [skipSpace_append (layout.gap_blank level), skipSpace_cons rfl]
  | (nextKey, nextValue) :: rest, level, fuel, key, value, text, following, plain, enough,
      solid, read => by
      have enough : 1 + nextValue.fuel + fuelMembers rest ≤ fuel := enough
      obtain ⟨fuel, rfl⟩ := Nat.exists_eq_add_of_le' (show 1 ≤ fuel by omega)
      have others := layout.readMembers_write rest level fuel nextKey nextValue
        (layout.write (level + 1) nextValue) following plain.2 (by omega)
        (fun after => layout.skipSpace_write (level + 1) plain.1 after)
        fun after ends =>
          layout.readValue_write nextValue (level + 1) fuel after plain.1 (by omega) ends
      have rewritten : layout.writeMembers level ((nextKey, nextValue) :: rest) ++ following =
          ',' :: (layout.gap (level + 1) ++ (writeString nextKey ++
            ':' :: (layout.afterColon ++ (layout.write (level + 1) nextValue ++
              (layout.writeMembers level rest ++ following))))) := by
        change ',' :: (layout.gap (level + 1) ++ (writeString nextKey ++
          ':' :: (layout.afterColon ++ (layout.write (level + 1) nextValue ++
            layout.writeMembers level rest))) ++ following) = _
        simp only [List.append_assoc, List.cons_append]
      rw [rewritten]
      refine readMembers_more layout (solid _) (read _ (endsNumber_cons _ (by decide)))
        (skipSpace_cons rfl _) ?_ others
      rw [skipSpace_append (layout.gap_blank _), skipSpace_writeString]

end

mutual

theorem fuel_le_length (layout : Layout) : ∀ (value : Json) (level : Nat), value.Plain →
    value.fuel ≤ 2 * (layout.write level value).length
  | .null, _, _ => (by decide : 1 ≤ 2 * 4)
  | .bool true, _, _ => (by decide : 1 ≤ 2 * 4)
  | .bool false, _, _ => (by decide : 1 ≤ 2 * 5)
  | .natural value, _, _ => by
      have : 0 < (writeNatural value).length := Nat.length_toDigits_pos
      change 1 ≤ 2 * (writeNatural value).length
      omega
  | .string text, _, _ => by
      obtain ⟨tail, starts, _⟩ := readString_tail text []
      rw [List.append_nil] at starts
      change 1 ≤ 2 * (writeString text).length
      rw [starts, List.length_cons]
      omega
  | .array [], _, _ => (by decide : 2 ≤ 2 * 2)
  | .array (element :: rest), level, plain => by
      have first := layout.fuel_le_length element (level + 1) plain.1
      have others := layout.fuelElements_le_length rest level plain.2
      change 1 + (1 + element.fuel + fuelElements rest) ≤ 2 * ('[' :: (layout.gap (level + 1) ++
        (layout.write (level + 1) element ++ layout.writeElements level rest))).length
      simp only [List.length_cons, List.length_append]
      omega
  | .object [], _, _ => (by decide : 2 ≤ 2 * 2)
  | .object ((key, value) :: rest), level, plain => by
      have first := layout.fuel_le_length value (level + 1) plain.1
      have others := layout.fuelMembers_le_length rest level plain.2
      change 1 + (1 + value.fuel + fuelMembers rest) ≤ 2 * ('\x7b' :: (layout.gap (level + 1) ++
        (writeString key ++ ':' :: (layout.afterColon ++ (layout.write (level + 1) value ++
          layout.writeMembers level rest))))).length
      simp only [List.length_cons, List.length_append]
      omega

theorem fuelElements_le_length (layout : Layout) : ∀ (rest : List Json) (level : Nat),
    PlainElements rest → fuelElements rest ≤ 2 * (layout.writeElements level rest).length
  | [], level, _ => by
      change 1 ≤ 2 * (layout.gap level ++ [']']).length
      simp only [List.length_append, List.length_singleton]
      omega
  | element :: rest, level, plain => by
      have first := layout.fuel_le_length element (level + 1) plain.1
      have others := layout.fuelElements_le_length rest level plain.2
      change 1 + element.fuel + fuelElements rest ≤ 2 * (',' :: (layout.gap (level + 1) ++
        (layout.write (level + 1) element ++ layout.writeElements level rest))).length
      simp only [List.length_cons, List.length_append]
      omega

theorem fuelMembers_le_length (layout : Layout) : ∀ (rest : List (Option String × Json))
    (level : Nat), PlainMembers rest →
    fuelMembers rest ≤ 2 * (layout.writeMembers level rest).length
  | [], level, _ => by
      change 1 ≤ 2 * (layout.gap level ++ ['\x7d']).length
      simp only [List.length_append, List.length_singleton]
      omega
  | (key, value) :: rest, level, plain => by
      have first := layout.fuel_le_length value (level + 1) plain.1
      have others := layout.fuelMembers_le_length rest level plain.2
      change 1 + value.fuel + fuelMembers rest ≤ 2 * (',' :: (layout.gap (level + 1) ++
        (writeString key ++ ':' :: (layout.afterColon ++ (layout.write (level + 1) value ++
          layout.writeMembers level rest))))).length
      simp only [List.length_cons, List.length_append]
      omega

end

theorem parse?_write (layout : Layout) {value : Json} (plain : value.Plain) :
    parse? (String.ofList (layout.write 0 value)) = some value := by
  have read := layout.readValue_write value 0 (2 * (layout.write 0 value).length + 2) []
    plain (Nat.le_add_right_of_le (layout.fuel_le_length value 0 plain)) (by simp [EndsNumber])
  have solid := layout.skipSpace_write 0 plain []
  rw [List.append_nil] at read solid
  rw [parse?, String.toList_ofList, solid]
  simp only [read]
  rfl

end Layout

/-- The compact text of a value is read as that value. -/
theorem parse?_compact {value : Json} (plain : value.Plain) : parse? value.compact = some value := by
  rw [compact, ← Layout.write_compact 0, Layout.parse?_write _ plain]

/-- The indented text of a value is read as that value. -/
theorem parse?_pretty {value : Json} (plain : value.Plain) : parse? value.pretty = some value := by
  rw [pretty, ← Layout.write_indented, Layout.parse?_write _ plain]

end SourceQuote.Json

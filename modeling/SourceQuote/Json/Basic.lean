/-!
Contract: values of the JSON data format.

Owns: the type of values and the views that a decoder takes of one: a text, a
number, a list, and the fields of a record.

A string written with an escape for half of a surrogate pair is well formed but
denotes no text; it is kept as `none`, so that a reader can skip it and a
decoder refuse it. Numbers are told apart only as far as anybody asks: natural
numbers by value, all others by the characters they were written with.

Does not own: reading and writing; see `SourceQuote.Json.Reader` and
`SourceQuote.Json.Writer`.
-/

namespace SourceQuote

/-- A JSON value. Members of an object stand in the order they were written. -/
inductive Json where
  | null
  | bool (value : Bool)
  /-- A number written with digits only. -/
  | natural (value : Nat)
  /-- Any other number, with a sign, a fraction or an exponent. -/
  | number (lexeme : List Char)
  /-- A string; `none` if it denotes no text. -/
  | string (text : Option String)
  | array (elements : List Json)
  | object (members : List (Option String × Json))
deriving Repr, Inhabited

namespace Json

def text (value : String) : Json :=
  .string (some value)

def record (members : List (String × Json)) : Json :=
  .object (members.map fun member => (some member.1, member.2))

def texts (values : List String) : Json :=
  .array (values.map text)

def asText? : Json → Option String
  | .string value => value
  | _ => none

def asBool? : Json → Option Bool
  | .bool value => some value
  | _ => none

def asNatural? (bound : Nat) : Json → Option Nat
  | .natural value => if value < bound then some value else none
  | _ => none

/-- The elements of an array, each decoded; none if one cannot be. -/
def asList? {α : Type} (decode : Json → Option α) : Json → Option (List α)
  | .array elements => elements.mapM decode
  | _ => none

def asTexts? : Json → Option (List String) :=
  asList? asText?

/-- A value that may be null. -/
def asOptional? {α : Type} (decode : Json → Option α) : Json → Option (Option α)
  | .null => some none
  | value => (decode value).map some

/-- The members of an object, none unless every key denotes a text. -/
def asMembers? : Json → Option (List (String × Json))
  | .object members => members.mapM fun member => member.1.map fun key => (key, member.2)
  | _ => none

def occurrences (key : String) (members : List (String × Json)) : Nat :=
  members.countP fun member => member.1 = key

/-- The values of a record's fields, in the order of `names`.

A record is written as an object, with its keys in any order, none of them twice
and unknown ones skipped, or as an array of its fields in order, of which the
last ones may be missing. A missing field is `none`. -/
def fields? (names : List String) : Json → Option (List (Option Json))
  | .array elements =>
      if elements.length ≤ names.length then
        some (elements.map some ++
          List.replicate (names.length - elements.length) none)
      else
        none
  | value =>
      (asMembers? value).bind fun members =>
        if names.all fun name => occurrences name members ≤ 1 then
          some (names.map fun name => members.lookup name)
        else
          none

/-- The name that a value chooses among several: a string, or an object with that
name as its only key and null as the value. -/
def asChoice? : Json → Option String
  | .string text => text
  | .object [(key, .null)] => key
  | _ => none

/-- A field that must be there. -/
def required {α : Type} (decode : Json → Option α) (field : Option Json) : Option α :=
  field.bind decode

/-- A field that has a value of its own when it is missing. -/
def withDefault {α : Type} (decode : Json → Option α) (fallback : α) :
    Option Json → Option α
  | none => some fallback
  | some value => decode value

end Json

end SourceQuote

import SourceQuote.Log.Level
import SourceQuote.Log.ValuePattern
import SourceQuote.Text.Alphanumeric
import SourceQuote.Text.Natural
import SourceQuote.Text.Span

/-!
Contract: the filter that an environment variable may put in place of a level.

Owns: directives and their written form, which directive decides for an event,
and the choice of a run's filter.

A filter is a list of directives separated by commas. A directive is a level
alone, or says where it holds and which level holds there, in the form
`scope[span{field=value}]=level` of which every part may be left out. It speaks
about the events whose scope begins with its own and which carry its field.
Directives that name a span or a value of a field speak about no event, because
no event here stands within a span.

Of the directives that speak about an event the most specific decides: the one
with the longest scope, then one with a field, then the one whose field comes
last in the order of texts, then the one written last.

Does not own: the events.
-/

namespace SourceQuote.Log

open SourceQuote.Text

/-- A field that an event must carry, and the value asked for, if one is. -/
structure FieldTest where
  name : String
  value : Option String
deriving DecidableEq, Repr

/-- What a filter says about some events: the least grave level that passes, or
that none passes. -/
structure Directive where
  /-- Empty for all events. -/
  scope : String
  span : Option String
  field : Option FieldTest
  limit : Option Level
deriving DecidableEq, Repr

def limitNumbered? : Nat → Option (Option Level)
  | 0 => some none
  | 1 => some (some .error)
  | 2 => some (some .warn)
  | 3 => some (some .info)
  | 4 => some (some .debug)
  | 5 => some (some .trace)
  | _ => none

def limitNamed? (text : String) : Option (Option Level) :=
  match lowerAscii text with
  | "off" => some none
  | "error" => some (some .error)
  | "warn" => some (some .warn)
  | "info" => some (some .info)
  | "debug" => some (some .debug)
  | "trace" => some (some .trace)
  | _ => none

def limit? (text : String) : Option (Option Level) :=
  ((natural? wordBound text).bind limitNumbered?).or (limitNamed? text)

/-- The directive that lets all events through. -/
def Directive.everything : Directive :=
  ⟨"", none, none, some .trace⟩

/-- The directive that a level alone stands for. -/
def Directive.ofLimit (limit : Option Level) : Directive :=
  { Directive.everything with limit := limit }

/-- Reads the test of a field: a name, and the value between the first `=` and the
next one, which must be well-formed. The test must not be empty. -/
def FieldTest.parse? (text : String) : Option FieldTest :=
  if text.isEmpty then
    none
  else
    match pieces '=' text.toList with
    | [] => none
    | [name] => some ⟨String.ofList name, none⟩
    | name :: value :: _ =>
        if ValuePattern.isValue (String.ofList value) then
          some ⟨String.ofList name, some (String.ofList value)⟩
        else
          none

/-- Where the reading of a directive stands. A part that is being read carries the
offset of its first byte. -/
inductive Stage where
  | start
  /-- In a scope, or in a level that stands alone. -/
  | scope
  | span (first : Nat)
  | field (first : Nat)
  /-- After the closing brace of a field. -/
  | fieldClosed
  /-- After the closing bracket. -/
  | spanClosed
  | limit (first : Nat)
deriving DecidableEq, Repr

structure Reading where
  stage : Stage
  /-- The bytes read so far, from the first character that is not blank. -/
  offset : Nat
  directive : Directive

namespace Reading

def initial : Reading :=
  ⟨.start, 0, Directive.everything⟩

def isOpening (c : Char) : Bool :=
  c = '-' || c = ':' || c = '_' || isAlphanumeric c

/-- The stage after a character that ends no part. -/
def goOn (reading : Reading) (c : Char) : Reading :=
  { reading with offset := reading.offset + c.utf8Size }

/-- The reading with a new stage and directive, after an ASCII character. -/
def enter (reading : Reading) (stage : Stage) (directive : Directive) : Reading :=
  ⟨stage, reading.offset + 1, directive⟩

/-- The part of a text from an offset to where the reading stands. -/
def part? (reading : Reading) (text : String) (first : Nat) : Option String :=
  slice? text first reading.offset

def stepScope (reading : Reading) (text : String) (c : Char) : Option Reading :=
  match c with
  | '=' => (reading.part? text 0).map fun scope =>
      reading.enter (.limit (reading.offset + 1)) { reading.directive with scope := scope }
  | '[' => (reading.part? text 0).map fun scope =>
      reading.enter (.span (reading.offset + 1)) { reading.directive with scope := scope }
  | _ => some (reading.goOn c)

/-- Reads a character of a span that starts at an offset. A field may follow a span
that is not there. -/
def stepSpan (reading : Reading) (text : String) (first : Nat) (c : Char) : Option Reading :=
  match c with
  | ']' => (reading.part? text first).map fun span =>
      reading.enter .spanClosed { reading.directive with span := some span }
  | '\x7b' => (reading.part? text first).map fun span =>
      reading.enter (.field (reading.offset + 1))
        { reading.directive with span := if span.isEmpty then none else some span }
  | _ => some (reading.goOn c)

/-- Reads a character of a field that starts at an offset. -/
def stepField (reading : Reading) (text : String) (first : Nat) (c : Char) : Option Reading :=
  match c with
  | '\x7d' => ((reading.part? text first).bind FieldTest.parse?).map fun test =>
      reading.enter .fieldClosed { reading.directive with field := some test }
  | _ => some (reading.goOn c)

/-- Reads one character. The parts are cut from `text`, whose leading blanks are
not counted by the offsets, so that a blank in front shifts every part. -/
def step (text : String) (reading : Reading) (c : Char) : Option Reading :=
  match reading.stage with
  | .start =>
      if c = '[' then some (reading.enter (.span 1) reading.directive)
      else if isOpening c then some { reading.goOn c with stage := .scope }
      else none
  | .scope => reading.stepScope text c
  | .span first => reading.stepSpan text first c
  | .field first => reading.stepField text first c
  | .fieldClosed => if c = ']' then some (reading.enter .spanClosed reading.directive) else none
  | .spanClosed =>
      if c = '=' then some (reading.enter (.limit (reading.offset + 1)) reading.directive)
      else none
  | .limit _ => some (reading.goOn c)

/-- The directive, once all characters are read. A limit that is left out lets
everything through. -/
def finish (text : String) (reading : Reading) : Option Directive :=
  match reading.stage with
  | .scope =>
      match limit? text with
      | some limit => some (Directive.ofLimit limit)
      | none => some { Directive.everything with scope := text }
  | .spanClosed => some reading.directive
  | .limit first =>
      match slice? text first text.utf8ByteSize with
      | none => none
      | some part =>
          if part.isEmpty then some reading.directive
          else (limit? part).map fun limit => { reading.directive with limit := limit }
  | _ => none

end Reading

def Directive.parse? (text : String) : Option Directive :=
  ((trim text).toList.foldlM (Reading.step text) Reading.initial).bind (Reading.finish text)

/-- Reads a filter; none if one of its directives is malformed. Nothing between two
commas is no directive, and a filter without directives lets through errors only. -/
def parseFilter? (text : String) : Option (List Directive) := do
  let written := (pieces ',' text.toList).filter fun piece => !piece.isEmpty
  let directives ← written.mapM fun piece => Directive.parse? (String.ofList piece)
  return if directives.isEmpty then [Directive.ofLimit (some .error)] else directives

/-- What a filter looks at in an event. -/
structure Traits where
  scope : String
  level : Level
  fieldNames : List String

/-- Whether an event carries the field that a directive asks for; never if it asks
for a value. -/
def FieldTest.holds (test : FieldTest) (traits : Traits) : Bool :=
  test.value.isNone && traits.fieldNames.contains test.name

def Directive.speaks (directive : Directive) (traits : Traits) : Bool :=
  directive.scope.toList.isPrefixOf traits.scope.toList && directive.span.isNone &&
    directive.field.all (·.holds traits)

/-- Whether a directive gives way to a later one: the later is at least as
specific. -/
def Directive.yields (old new : Directive) : Bool :=
  let oldKey := (old.scope.length, old.field.map FieldTest.name)
  let newKey := (new.scope.length, new.field.map FieldTest.name)
  oldKey.1 < newKey.1 ||
    (oldKey.1 == newKey.1 &&
      match oldKey.2, newKey.2 with
      | none, _ => true
      | some _, none => false
      | some oldName, some newName => !(newName < oldName))

/-- The directive that decides for an event: of those that speak about it the most
specific, and of several such the last. -/
def decisive? (filter : List Directive) (traits : Traits) : Option Directive :=
  (filter.filter (·.speaks traits)).foldl
    (fun best directive =>
      match best with
      | none => some directive
      | some old => if old.yields directive then some directive else some old)
    none

def passes (filter : List Directive) (traits : Traits) : Bool :=
  match (decisive? filter traits).bind Directive.limit with
  | some limit => traits.level.rank ≤ limit.rank
  | none => false

/-- The filter of a run: the first well-formed one among the given texts, else
the one that a level stands for. -/
def chooseFilter (overrides : List (Option String)) (level : Level) : List Directive :=
  ((overrides.filterMap id).findSome? parseFilter?).getD [Directive.ofLimit (some level)]

end SourceQuote.Log

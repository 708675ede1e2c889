import SourceQuote.Json.Reader
import SourceQuote.Json.Writer
import SourceQuote.Repository.Basic

/-!
Contract: quotations as JSON values.

Owns: for segments, templates, quotations, classes, repositories and span kinds
the value that stands for them, and the decoder of that value.

A decoder takes what the encoder gives, and also the freedoms of the format:
keys in any order, unknown keys, and records as arrays of their fields. Of a
method that is listed twice the last quotation counts, in the place of the
first.
-/

namespace SourceQuote

namespace Segment

def toJson : Segment → Json
  | .literal text => .record [("kind", .text "literal"), ("text", .text text)]
  | .identifierRef name => .record [("kind", .text "identifier_ref"), ("text", .text name)]

/-- The name of a segment's kind. In an array of the fields it is a string; under
a key it may be any form of a choice. -/
def kindOfJson? (value kind : Json) : Option String :=
  match value with
  | .array _ => kind.asText?
  | _ => kind.asChoice?

def ofJson? (value : Json) : Option Segment :=
  match value.fields? ["kind", "text"] with
  | some [kind, content] => do
      let kind ← Json.required (kindOfJson? value) kind
      let text ← Json.required Json.asText? content
      match kind with
      | "literal" => some (.literal text)
      | "identifier_ref" => some (.identifierRef text)
      | _ => none
  | _ => none

def listToJson (segments : List Segment) : Json :=
  .array (segments.map toJson)

def listOfJson? : Json → Option (List Segment) :=
  Json.asList? ofJson?

end Segment

namespace SpanKind

def ofStoredName? : String → Option SpanKind
  | "full_declaration" => some .fullDeclaration
  | "body_only" => some .bodyOnly
  | _ => none

def ofJson? (value : Json) : Option SpanKind :=
  value.asChoice?.bind ofStoredName?

end SpanKind

namespace Template

def toJson (template : Template) : Json :=
  .record [("parameters", .texts template.parameters),
    ("segments", Segment.listToJson template.segments)]

def ofJson? (value : Json) : Option Template :=
  match value.fields? ["parameters", "segments"] with
  | some [parameters, segments] => do
      let parameters ← Json.required Json.asTexts? parameters
      let segments ← Json.required Segment.listOfJson? segments
      return ⟨parameters, segments⟩
  | _ => none

end Template

namespace Quotation

def toJson (quotation : Quotation) : Json :=
  .record [("func", quotation.func.toJson), ("body", quotation.body.toJson)]

def ofJson? (value : Json) : Option Quotation :=
  match value.fields? ["func", "body"] with
  | some [func, body] => do
      let func ← Json.required Template.ofJson? func
      let body ← Json.required Template.ofJson? body
      return ⟨func, body⟩
  | _ => none

end Quotation

namespace ClassId

def toJson (classId : ClassId) : Json :=
  .record [("module", .text classId.moduleName), ("name", .text classId.name)]

def ofJson? (value : Json) : Option ClassId :=
  match value.fields? ["module", "name"] with
  | some [moduleName, name] => do
      let moduleName ← Json.required Json.asText? moduleName
      let name ← Json.required Json.asText? name
      return ⟨moduleName, name⟩
  | _ => none

end ClassId

/-- The entries of an object, each value decoded. -/
def decodeEntries? {α : Type} (decode : Json → Option α) (value : Json) :
    Option (List (String × α)) :=
  value.asMembers?.bind fun members =>
    members.mapM fun member => (decode member.2).map fun decoded => (member.1, decoded)

namespace Repository

def toJson (repository : Repository) : Json :=
  .record [("class", repository.classId.toJson),
    ("quotations", .record (repository.quotations.entries.map fun entry =>
      (entry.1, entry.2.toJson)))]

def quotationsOfJson? (value : Json) : Option (InsertionMap Quotation) :=
  (decodeEntries? Quotation.ofJson? value).map InsertionMap.ofList

def ofJson? (value : Json) : Option Repository :=
  match value.fields? ["class", "quotations"] with
  | some [classId, quotations] => do
      let classId ← Json.required ClassId.ofJson? classId
      let quotations ← Json.required quotationsOfJson? quotations
      return ⟨classId, quotations⟩
  | _ => none

def listToJson (repositories : List Repository) : Json :=
  .array (repositories.map toJson)

def listOfJson? : Json → Option (List Repository) :=
  Json.asList? ofJson?

end Repository

end SourceQuote

import SourceQuote.Proofs.Containers.Maps
import SourceQuote.Proofs.Json.RoundTrip
import SourceQuote.Storage.Cache
import SourceQuote.Storage.Manifest

/-!
Contract: stored documents are decoded as what they were made from.

Owns: for every type with a value, that decoding undoes encoding; that every such value is
plain, so that its text reads back; and what follows for the texts of manifests and caches.
A manifest's text is no cache's text.
-/

namespace SourceQuote

/-! ## Views of a value -/

namespace Json

theorem mapM_map_eq_some {α β : Type} {decode : β → Option α} {encode : α → β}
    (inverse : ∀ item, decode (encode item) = some item) (items : List α) :
    (items.map encode).mapM decode = some items := by
  induction items with
  | nil => rfl
  | cons item rest inductionHypothesis =>
      rw [List.map_cons, List.mapM_cons, inverse, inductionHypothesis]
      rfl

theorem asMembers?_record (members : List (String × Json)) :
    (record members).asMembers? = some members := by
  apply mapM_map_eq_some
  intro member
  rfl

theorem asList?_array {α : Type} {decode : Json → Option α} {encode : α → Json}
    (inverse : ∀ item, decode (encode item) = some item) (items : List α) :
    asList? decode (.array (items.map encode)) = some items :=
  mapM_map_eq_some inverse items

theorem asTexts?_texts (values : List String) : (texts values).asTexts? = some values := by
  have inverse : ∀ value : String, asText? (text value) = some value := fun _ => rfl
  exact asList?_array inverse values

theorem decodeEntries?_record {α : Type} {decode : Json → Option α} {encode : α → Json}
    (inverse : ∀ item, decode (encode item) = some item) (entries : List (String × α)) :
    decodeEntries? decode (record (entries.map fun entry => (entry.1, encode entry.2))) =
      some entries := by
  rw [decodeEntries?, asMembers?_record, Option.bind_some]
  refine mapM_map_eq_some (fun entry => ?_) entries
  rw [inverse]
  rfl

@[simp] theorem plain_text (value : String) : (text value).Plain :=
  trivial

@[simp] theorem plain_natural (value : Nat) : (natural value).Plain :=
  trivial

theorem plain_array {elements : List Json} (each : ∀ element ∈ elements, element.Plain) :
    (array elements).Plain := by
  induction elements with
  | nil => trivial
  | cons element rest inductionHypothesis =>
      exact ⟨each element List.mem_cons_self,
        inductionHypothesis fun other member => each other (List.mem_cons_of_mem _ member)⟩

theorem plain_record {members : List (String × Json)} (each : ∀ member ∈ members, member.2.Plain) :
    (record members).Plain := by
  induction members with
  | nil => trivial
  | cons member rest inductionHypothesis =>
      exact ⟨each member List.mem_cons_self,
        inductionHypothesis fun other isOther => each other (List.mem_cons_of_mem _ isOther)⟩

theorem plain_pair {first second : String} {value other : Json} (plain : value.Plain)
    (otherPlain : other.Plain) : (record [(first, value), (second, other)]).Plain :=
  ⟨plain, otherPlain, trivial⟩

theorem plain_texts (values : List String) : (texts values).Plain := by
  apply plain_array
  intro element member
  obtain ⟨value, _, rfl⟩ := List.mem_map.mp member
  exact plain_text value

end Json

/-! ## Quotations -/

theorem Segment.ofJson?_toJson : ∀ segment : Segment, ofJson? segment.toJson = some segment
  | .literal _ => rfl
  | .identifierRef _ => rfl

theorem Segment.plain_toJson : ∀ segment : Segment, segment.toJson.Plain
  | .literal _ => Json.plain_pair trivial trivial
  | .identifierRef _ => Json.plain_pair trivial trivial

theorem Template.ofJson?_toJson (template : Template) :
    ofJson? template.toJson = some template := by
  have fields : template.toJson.fields? ["parameters", "segments"] =
      some [some (.texts template.parameters), some (Segment.listToJson template.segments)] := rfl
  have segments : Segment.listOfJson? (Segment.listToJson template.segments) =
      some template.segments :=
    Json.asList?_array Segment.ofJson?_toJson _
  rw [ofJson?, fields]
  simp only [Json.required, Option.bind_some, Json.asTexts?_texts, segments]
  rfl

theorem Template.plain_toJson (template : Template) : template.toJson.Plain := by
  refine Json.plain_pair (Json.plain_texts _) (Json.plain_array ?_)
  intro element member
  obtain ⟨segment, _, rfl⟩ := List.mem_map.mp member
  exact segment.plain_toJson

theorem Quotation.ofJson?_toJson (quotation : Quotation) :
    ofJson? quotation.toJson = some quotation := by
  have fields : quotation.toJson.fields? ["func", "body"] =
      some [some quotation.func.toJson, some quotation.body.toJson] := rfl
  rw [ofJson?, fields]
  simp only [Json.required, Option.bind_some, Template.ofJson?_toJson]
  rfl

theorem Quotation.plain_toJson (quotation : Quotation) : quotation.toJson.Plain :=
  Json.plain_pair quotation.func.plain_toJson quotation.body.plain_toJson

theorem ClassId.ofJson?_toJson (classId : ClassId) : ofJson? classId.toJson = some classId :=
  rfl

namespace Repository

theorem ofJson?_toJson (repository : Repository) : ofJson? repository.toJson = some repository := by
  have fields : repository.toJson.fields? ["class", "quotations"] =
      some [some repository.classId.toJson, some (.record (repository.quotations.entries.map
        fun entry => (entry.1, entry.2.toJson)))] := rfl
  have quotations : quotationsOfJson? (.record (repository.quotations.entries.map
      fun entry => (entry.1, entry.2.toJson))) = some repository.quotations := by
    rw [quotationsOfJson?, Json.decodeEntries?_record Quotation.ofJson?_toJson, Option.map_some,
      InsertionMap.ofList_entries]
  rw [ofJson?, fields]
  simp only [Json.required, Option.bind_some, ClassId.ofJson?_toJson, quotations]
  rfl

theorem plain_toJson (repository : Repository) : repository.toJson.Plain := by
  refine Json.plain_pair (Json.plain_pair trivial trivial) (Json.plain_record ?_)
  intro member isMember
  obtain ⟨entry, _, rfl⟩ := List.mem_map.mp isMember
  exact entry.2.plain_toJson

theorem listOfJson?_listToJson (repositories : List Repository) :
    listOfJson? (listToJson repositories) = some repositories :=
  Json.asList?_array ofJson?_toJson repositories

theorem plain_listToJson (repositories : List Repository) : (listToJson repositories).Plain := by
  apply Json.plain_array
  intro element member
  obtain ⟨repository, _, rfl⟩ := List.mem_map.mp member
  exact repository.plain_toJson

end Repository

/-! ## Documents -/

namespace Manifest

theorem plain_toJson (manifest : Manifest) : manifest.toJson.Plain :=
  Json.plain_pair trivial (Repository.plain_listToJson _)

theorem ofJson?_toJson {manifest : Manifest} (inRange : manifest.version < versionBound) :
    ofJson? manifest.toJson = some manifest := by
  have fields : manifest.toJson.fields? ["version", "repositories"] =
      some [some (.natural manifest.version),
        some (Repository.listToJson manifest.repositories)] := rfl
  have version : Json.asNatural? versionBound (.natural manifest.version) =
      some manifest.version := if_pos inRange
  rw [ofJson?, fields]
  simp only [Json.required, Option.bind_some, version, Repository.listOfJson?_listToJson]
  rfl

/-- The text of a manifest is read as that manifest. -/
theorem parse_render (path : String) {manifest : Manifest}
    (current : manifest.version = currentVersion) :
    parse path manifest.render = .ok manifest := by
  have inRange : manifest.version < versionBound := by
    rw [current]
    decide
  rw [parse, render, Json.parse?_pretty manifest.plain_toJson, Option.bind_some,
    ofJson?_toJson inRange]
  exact if_pos current

end Manifest

namespace BuildCache

theorem entryOfJson?_entryToJson (entry : CachedFile) :
    entryOfJson? (entryToJson entry) = some entry := by
  have fields : (entryToJson entry).fields? ["content_hash", "repositories"] =
      some [some (.text entry.contentHash),
        some (Repository.listToJson entry.repositories)] := rfl
  have contentHash : Json.asText? (.text entry.contentHash) = some entry.contentHash := rfl
  rw [entryOfJson?, fields]
  simp only [Json.required, Option.bind_some, contentHash, Repository.listOfJson?_listToJson]
  rfl

theorem plain_toJson (cache : BuildCache) : cache.toJson.Plain := by
  have files : (Json.record (cache.files.entries.map
      fun entry => (entry.1, entryToJson entry.2))).Plain := by
    apply Json.plain_record
    intro member isMember
    obtain ⟨entry, _, rfl⟩ := List.mem_map.mp isMember
    exact Json.plain_pair trivial (Repository.plain_listToJson _)
  exact ⟨trivial, trivial, files, trivial⟩

theorem ofJson?_toJson {cache : BuildCache} (inRange : cache.version < versionBound) :
    ofJson? cache.toJson = some cache := by
  have fields : cache.toJson.fields? ["version", "options", "files"] =
      some [some (.natural cache.version), some (.text cache.options),
        some (.record (cache.files.entries.map
          fun entry => (entry.1, entryToJson entry.2)))] := rfl
  have version : Json.asNatural? versionBound (.natural cache.version) =
      some cache.version := if_pos inRange
  have options : Json.asText? (.text cache.options) = some cache.options := rfl
  have files : filesOfJson? (.record (cache.files.entries.map
      fun entry => (entry.1, entryToJson entry.2))) = some cache.files := by
    rw [filesOfJson?, Json.decodeEntries?_record entryOfJson?_entryToJson, Option.map_some,
      SortedMap.ofList_entries]
  rw [ofJson?, fields]
  simp only [Json.required, Option.bind_some, version, options, files]
  rfl

/-- The cache that a text stands for, whatever options it was made with. -/
def stored? (text : String) : Option BuildCache :=
  (Json.parse? text).bind ofJson?

/-- The text of a cache is read as that cache. -/
theorem stored?_render {cache : BuildCache} (current : cache.version = currentVersion) :
    stored? cache.render = some cache := by
  have inRange : cache.version < versionBound := by
    rw [current]
    decide
  rw [stored?, render, Json.parse?_compact cache.plain_toJson, Option.bind_some,
    ofJson?_toJson inRange]

/-- The text of a cache is loaded under the options that the cache was made with. -/
theorem load_render {cache : BuildCache} (path : String) {options : PassOptions}
    (current : cache.version = currentVersion) (accepted : cache.options = fingerprint options) :
    load path (some cache.render) options = (cache, []) := by
  have decoded : (Json.parse? cache.render).bind ofJson? = some cache := stored?_render current
  simp only [load, decoded, current, accepted, and_self, if_true]

/-- A manifest is no cache: it has no options. -/
theorem stored?_render_manifest (manifest : Manifest) : stored? manifest.render = none := by
  rw [stored?, Manifest.render, Json.parse?_pretty manifest.plain_toJson]
  have fields : manifest.toJson.fields? ["version", "options", "files"] =
      some [some (.natural manifest.version), none, none] := rfl
  rw [Option.bind_some, ofJson?, fields]
  simp only [Json.required, Option.bind_some, Option.bind_none]
  cases Json.asNatural? versionBound (.natural manifest.version) <;> rfl

end BuildCache

end SourceQuote

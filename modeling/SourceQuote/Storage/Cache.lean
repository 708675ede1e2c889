import SourceQuote.Containers.SortedMap
import SourceQuote.Digest.Sha256
import SourceQuote.Log.Event
import SourceQuote.Pass.Options
import SourceQuote.Storage.Codec

/-!
Contract: the build cache, what the last build knew of each file.

Owns: the type, its operations, its text, and loading: a cache that was built
with other options or cannot be decoded is replaced by an empty one.
-/

namespace SourceQuote

/-- What the last build knew of a file. -/
structure CachedFile where
  contentHash : String
  repositories : List Repository

/-- What the last build knew, by path. -/
structure BuildCache where
  version : Nat
  /-- The fingerprint of the options that the entries were made with. -/
  options : String
  files : SortedMap String CachedFile

namespace BuildCache

def fileName : String := ".tsq-cache.json"

/-- The version of this program, a part of every fingerprint. -/
def programVersion : String := "0.1.0"

def currentVersion : Nat := 1

def versionBound : Nat := UInt32.size

/-- The text that a fingerprint is the digest of. -/
def fingerprintText (options : PassOptions) : String :=
  programVersion ++ "\x00" ++ options.marker ++ "\x00" ++ options.registerCall

def fingerprint (options : PassOptions) : String :=
  Sha256.hexDigest (fingerprintText options).toByteArray

def empty (options : PassOptions) : BuildCache :=
  ⟨currentVersion, fingerprint options, ∅⟩

/-- What is known of a file, if its content still has the hash it had. -/
def fresh? (cache : BuildCache) (path contentHash : String) : Option CachedFile :=
  (cache.files.get? path).filter fun entry => entry.contentHash = contentHash

def update (cache : BuildCache) (path contentHash : String)
    (repositories : List Repository) : BuildCache :=
  { cache with files := cache.files.insert path ⟨contentHash, repositories⟩ }

def remove (cache : BuildCache) (path : String) : BuildCache :=
  { cache with files := cache.files.erase path }

def retain (cache : BuildCache) (live : List String) : BuildCache :=
  { cache with files := cache.files.filterKeys fun path => live.contains path }

def size (cache : BuildCache) : Nat :=
  cache.files.size

def entryToJson (entry : CachedFile) : Json :=
  .record [("content_hash", .text entry.contentHash),
    ("repositories", Repository.listToJson entry.repositories)]

def entryOfJson? (value : Json) : Option CachedFile :=
  match value.fields? ["content_hash", "repositories"] with
  | some [contentHash, repositories] => do
      let contentHash ← Json.required Json.asText? contentHash
      let repositories ← Json.required Repository.listOfJson? repositories
      return ⟨contentHash, repositories⟩
  | _ => none

def toJson (cache : BuildCache) : Json :=
  .record [("version", .natural cache.version), ("options", .text cache.options),
    ("files", .record (cache.files.entries.map fun entry => (entry.1, entryToJson entry.2)))]

def filesOfJson? (value : Json) : Option (SortedMap String CachedFile) :=
  (decodeEntries? entryOfJson? value).map SortedMap.ofList

def ofJson? (value : Json) : Option BuildCache :=
  match value.fields? ["version", "options", "files"] with
  | some [version, options, files] => do
      let version ← Json.required (Json.asNatural? versionBound) version
      let options ← Json.required Json.asText? options
      let files ← Json.required filesOfJson? files
      return ⟨version, options, files⟩
  | _ => none

def render (cache : BuildCache) : String :=
  cache.toJson.compact

/-- The cache that a stored text stands for, under some options, with the event
if the text is discarded. `none` is a text that cannot be read at all. -/
def load (path : String) (stored : Option String) (options : PassOptions) :
    BuildCache × List Log.Event :=
  match stored with
  | none => (empty options, [])
  | some text =>
      match (Json.parse? text).bind ofJson? with
      | none => (empty options, [.corruptCache path])
      | some cache =>
          if cache.version = currentVersion ∧ cache.options = fingerprint options then
            (cache, [])
          else
            (empty options, [.staleCache path])

end BuildCache

end SourceQuote

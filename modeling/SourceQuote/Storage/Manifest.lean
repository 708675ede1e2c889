import SourceQuote.Storage.Codec

/-!
Contract: the manifest, the document that lists the repositories of a build.

Owns: the type, the order of its repositories, its text, and reading the text
back.

Repositories are listed by class; those of one class keep their order. The whole
document is decoded before its version is looked at.
-/

namespace SourceQuote

/-- The repositories of a build with the version of the document's form. -/
structure Manifest where
  version : Nat
  repositories : List Repository

namespace Manifest

def currentVersion : Nat := 1

def versionBound : Nat := UInt32.size

/-- Whether a repository may stand before another. -/
def le (first second : Repository) : Bool :=
  compare first.classId second.classId ≠ .gt

def ofRepositories (repositories : List Repository) : Manifest :=
  ⟨currentVersion, repositories.mergeSort le⟩

def toJson (manifest : Manifest) : Json :=
  .record [("version", .natural manifest.version),
    ("repositories", Repository.listToJson manifest.repositories)]

def ofJson? (value : Json) : Option Manifest :=
  match value.fields? ["version", "repositories"] with
  | some [version, repositories] => do
      let version ← Json.required (Json.asNatural? versionBound) version
      let repositories ← Json.required Repository.listOfJson? repositories
      return ⟨version, repositories⟩
  | _ => none

def render (manifest : Manifest) : String :=
  manifest.toJson.pretty

/-- Reads the text of a manifest. `path` names it in messages. -/
def parse (path text : String) : Except Error Manifest :=
  match (Json.parse? text).bind ofJson? with
  | none => .error .json
  | some manifest =>
      if manifest.version = currentVersion then .ok manifest
      else .error (.config (.manifestVersion path manifest.version))

end Manifest

end SourceQuote

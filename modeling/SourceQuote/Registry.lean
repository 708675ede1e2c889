import SourceQuote.Containers.SortedMap
import SourceQuote.Log.Event
import SourceQuote.Storage.Manifest

/-!
Contract: the registry of repositories by class.

Owns: registration, look-up, and publishing through a manifest.

A second registration for a class replaces the first.
-/

namespace SourceQuote

/-- Repositories by the class they were registered for. -/
structure Registry where
  repositories : SortedMap ClassId Repository

namespace Registry

def empty : Registry :=
  ⟨∅⟩

/-- Registers a repository for a class. -/
def register (registry : Registry) (classId : ClassId) (repository : Repository) : Registry :=
  ⟨registry.repositories.insert classId repository⟩

def registerEvents (registry : Registry) (classId : ClassId) : List Log.Event :=
  if registry.repositories.contains classId then [.replacedRepository classId] else []

/-- Registers repositories one after the other, each for its own class. -/
def registerAll (registry : Registry) (repositories : List Repository) : Registry :=
  repositories.foldl (fun registry repository => registry.register repository.classId repository)
    registry

def lookup (registry : Registry) (classId : ClassId) : Except Error Repository :=
  match registry.repositories.get? classId with
  | some repository => .ok repository
  | none => .error (.noRepositoryRegistered classId.qualified)

def contains (registry : Registry) (classId : ClassId) : Bool :=
  registry.repositories.contains classId

def classes (registry : Registry) : List ClassId :=
  registry.repositories.keys

def size (registry : Registry) : Nat :=
  registry.repositories.size

/-- Registers every repository of a manifest and counts them. `stored` is the
manifest's text, `none` if it cannot be read. -/
def loadManifest (registry : Registry) (path : String) (stored : Option String) :
    Except Error (Registry × Nat) :=
  match stored with
  | none => .error .file
  | some text => do
      let manifest ← Manifest.parse path text
      return (registry.registerAll manifest.repositories, manifest.repositories.length)

end Registry

end SourceQuote

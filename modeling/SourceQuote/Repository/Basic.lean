import SourceQuote.ClassId
import SourceQuote.Containers.InsertionMap
import SourceQuote.Quotation

/-!
Contract: the quotations of one class.

Owns: the type: the class and its quotations by method name, in the order in
which the names first occur.
-/

namespace SourceQuote

structure Repository where
  classId : ClassId
  quotations : InsertionMap Quotation

namespace Repository

def empty (classId : ClassId) : Repository :=
  ⟨classId, ∅⟩

/-- Adds a quotation, in place of an earlier one of the same method. -/
def insert (repository : Repository) (method : String) (quotation : Quotation) : Repository :=
  { repository with quotations := repository.quotations.insert method quotation }

def get? (repository : Repository) (method : String) : Option Quotation :=
  repository.quotations.get? method

def methodNames (repository : Repository) : List String :=
  repository.quotations.keys

def size (repository : Repository) : Nat :=
  repository.quotations.size

def isEmpty (repository : Repository) : Bool :=
  repository.quotations.isEmpty

end Repository

end SourceQuote

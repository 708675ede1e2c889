import SourceQuote.Log.Event
import SourceQuote.Method.Segmentation
import SourceQuote.Repository.Basic

/-!
Contract: the quotations of a class, taken from its body.

Owns: what becomes of each member, the repository of the members together, and
the events on the way.

Members that declare no ordinary method play no part. The first member that
cannot be quoted decides the failure. Of several members with one name the last
is kept, in the place of the first.
-/

namespace SourceQuote

/-- What becomes of a member that declares an ordinary method. -/
inductive MemberOutcome where
  /-- Skipped, as its name is computed. Keeps its first line. -/
  | computedName (line : String)
  | quoted (method : String) (quotation : Quotation)
  | failed (error : Error)

namespace MemberOutcome

/-- The quotation of a member with a name, or why there is none. -/
def ofDeclaration (source : String) (member : Placed) : MemberOutcome :=
  match MethodDeclaration.ofNode source member with
  | .error error => .failed error
  | .ok method =>
      match method.quote with
      | .error error => .failed error
      | .ok quotation => .quoted method.name quotation

/-- The outcome of a member, none if it declares no ordinary method. -/
def ofMember? (source : String) (member : Placed) : Option MemberOutcome :=
  if isOrdinaryMethod source member.node then
    if hasComputedName member.node then
      some (.computedName (Text.firstLine (member.node.text source)))
    else
      some (ofDeclaration source member)
  else
    none

def error? : MemberOutcome → Option Error
  | .failed error => some error
  | _ => none

end MemberOutcome

def memberOutcomes (source : String) (classNode : Node) : List MemberOutcome :=
  match classNode.fieldChild? "body" with
  | none => []
  | some body =>
      ((Placed.children body).filter fun member => member.node.info.named).filterMap
        (MemberOutcome.ofMember? source)

def Repository.addOutcome (repository : Repository) : MemberOutcome → Except Error Repository
  | .computedName _ => .ok repository
  | .quoted method quotation => .ok (repository.insert method quotation)
  | .failed error => .error error

/-- The repository of a class: all its ordinary methods with a name, or the error
of the first that cannot be quoted. -/
def extractClass (source : String) (classNode : Node) (classId : ClassId) :
    Except Error Repository :=
  (memberOutcomes source classNode).foldlM Repository.addOutcome (Repository.empty classId)

/-- The events of outcomes up to the first failure. `known` are the names that
were quoted before. -/
def outcomeEvents (classId : ClassId) (known : List String) :
    List MemberOutcome → List Log.Event
  | [] => []
  | .failed _ :: _ => []
  | .computedName line :: rest =>
      .skippedComputedName classId line :: outcomeEvents classId known rest
  | .quoted method quotation :: rest =>
      .quotedMethod classId method quotation.arity ::
        ((if method ∈ known then [.duplicateMethod classId method] else []) ++
          outcomeEvents classId (method :: known) rest)

def extractionEvents (source : String) (classNode : Node) (classId : ClassId) :
    List Log.Event :=
  outcomeEvents classId [] (memberOutcomes source classNode)

end SourceQuote

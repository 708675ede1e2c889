import SourceQuote.Proofs.Text.Positions
import SourceQuote.Proofs.Tree.Leaves
import SourceQuote.Tree.SourceUnit

/-!
Contract: where a source that cannot be read is at fault.

Owns: which nodes are faults, trees whose flags tell the truth about the faults below them, that
looking only below flagged nodes finds the first fault in pre-order, and the outcome of parsing.

Does not own: how a grammar comes to its faults.
-/

namespace SourceQuote

namespace Node

/-- Whether a node stands for text that could not be read or for a token that is not there. -/
def isFault (node : Node) : Bool :=
  node.info.isError || node.info.isMissing

/-- Whether every node of a tree is flagged exactly if it is a fault or has one below it. -/
def FlagsFaults (root : Node) : Prop :=
  ∀ node ∈ root.preorder, node.info.hasError = node.preorder.any isFault

instance (root : Node) : Decidable root.FlagsFaults :=
  inferInstanceAs (Decidable (∀ node ∈ root.preorder, _ = _))

variable {node root : Node} {nodes : List Node}

mutual

/-- Passing over children without the flag misses no fault, as none is below them. -/
theorem firstFault?_eq_find? (root : Node) (flagged : root.FlagsFaults) :
    root.firstFault? = root.preorder.find? isFault :=
  match root, flagged with
  | .mk info children, flagged => by
      have below := firstFaultIn?_eq_find? children fun node member =>
        flagged node (by rw [preorder]; exact List.mem_cons_of_mem _ member)
      rw [firstFault?, preorder, List.find?_cons, below]
      change (if isFault (.mk info children) then _ else _) = _
      cases isFault (.mk info children) <;> rfl

theorem firstFaultIn?_eq_find? (nodes : List Node)
    (flagged : ∀ node ∈ preorderList nodes, node.info.hasError = node.preorder.any isFault) :
    firstFaultIn? nodes = (preorderList nodes).find? isFault :=
  match nodes, flagged with
  | [], _ => rfl
  | node :: rest, flagged => by
      have inNode : node.FlagsFaults := fun other member =>
        flagged other (by rw [preorderList]; exact List.mem_append_left _ member)
      have later := firstFaultIn?_eq_find? rest fun other member =>
        flagged other (by rw [preorderList]; exact List.mem_append_right _ member)
      rw [firstFaultIn?, firstFault?_eq_find? node inNode, preorderList, List.find?_append, later]
      cases flag : node.info.hasError with
      | true => cases node.preorder.find? isFault <;> rfl
      | false =>
          have clean : node.preorder.find? isFault = none := by
            rw [List.find?_eq_none, ← List.any_eq_false]
            exact (inNode node node.mem_preorder_self).symm.trans flag
          rw [clean]
          rfl

end

/-- The flag of the root tells whether there is a fault at all. -/
theorem FlagsFaults.hasError_eq (flagged : root.FlagsFaults) :
    root.info.hasError = (root.preorder.find? isFault).isSome := by
  rw [flagged root root.mem_preorder_self, Bool.eq_iff_iff, List.any_eq_true,
    List.find?_isSome]

end Node

namespace SourceUnit

open SourceQuote.Text

variable {parser : Parser} {source : String} {dialect : Dialect} {root : Node}

/-- The outcome of parsing, by the first fault of the tree in pre-order. -/
theorem parse_eq_of_flagged (path : String)
    (read : parser dialect.grammar source = some root) (flagged : root.FlagsFaults) :
    parse parser path source dialect =
      match root.preorder.find? Node.isFault with
      | none => .ok ⟨path, dialect, source, root⟩
      | some fault => .error (.parse (.badSource path (some (positionAt source fault.start)))) := by
  rw [parse, read]
  show ofTree path source dialect root = _
  rw [ofTree, flagged.hasError_eq, Node.firstFault?_eq_find? root flagged]
  cases root.preorder.find? Node.isFault <;> rfl

/-- Faults are located exactly. If a grammar gives a tree whose flags tell the truth, then the
source is parsed exactly if no node of the tree is a fault. Otherwise the search finds the first
fault in pre-order, and the source is refused with its path and with the row and the column of
that node: one more than the line feeds ahead of it, and one more than the bytes since the last
of them. -/
theorem parse_locates (path : String) (read : parser dialect.grammar source = some root)
    (flagged : root.FlagsFaults) :
    ((∃ unit, parse parser path source dialect = .ok unit) ↔
      ∀ node ∈ root.preorder, node.isFault = false) ∧
    ((∀ node ∈ root.preorder, node.isFault = false) →
      parse parser path source dialect = .ok ⟨path, dialect, source, root⟩) ∧
    ∀ before fault after,
      root.preorder = before ++ fault :: after →
      (∀ node ∈ before, node.isFault = false) →
      fault.isFault = true →
      ∃ error row column,
        parse parser path source dialect = .error error ∧
        error = .parse (.badSource path (some ⟨row, column⟩)) ∧
        row = ((bytes source).take fault.start).count lineFeed + 1 ∧
        column = (((bytes source).take fault.start).rtakeWhile (· ≠ lineFeed)).length + 1 ∧
        error.message =
          "Parse error: syntax error in " ++ path ++ " at " ++ toString row ++ ":" ++
            toString column ∧
        root.firstFault? = some fault := by
  have outcome := parse_eq_of_flagged path read flagged
  have parsed (clean : ∀ node ∈ root.preorder, node.isFault = false) :
      parse parser path source dialect = .ok ⟨path, dialect, source, root⟩ := by
    have noFault : root.preorder.find? Node.isFault = none := by simpa using clean
    rw [outcome, noFault]
  refine ⟨⟨?_, fun clean => ⟨_, parsed clean⟩⟩, parsed, ?_⟩
  · intro ⟨unit, succeeded⟩
    cases found : root.preorder.find? Node.isFault with
    | none => simpa using found
    | some fault =>
        rw [outcome, found] at succeeded
        contradiction
  · intro before fault after split earlier isFault
    have found : root.preorder.find? Node.isFault = some fault := by
      apply List.find?_eq_some_iff_append.mpr
      exact ⟨isFault, before, after, split, by simpa using earlier⟩
    rw [found] at outcome
    refine ⟨_, _, _, outcome, by rw [positionAt_eq], rfl, rfl, ?_, ?_⟩
    · rw [positionAt_eq]
      rfl
    · rw [Node.firstFault?_eq_find? root flagged, found]

end SourceUnit

/-! ## A source with two faults

In the second line of the text `x;⏎é(` a bracket is left open, and a semicolon is not there. -/

namespace Sample

def faultyText : String := "x;\né("

def flagged (kind : String) (isError isMissing hasError : Bool) (start stop : Nat)
    (children : List Node) : Node :=
  .mk ⟨kind, none, true, isError, isMissing, hasError, start, stop⟩ children

def openBracket : Node :=
  flagged "ERROR" true false true 5 6 [flagged "(" false false false 5 6 []]

def faultyTree : Node :=
  flagged "program" false false true 0 6
    [flagged "expression_statement" false false false 0 2
      [flagged "identifier" false false false 0 1 [], flagged ";" false false false 1 2 []],
     flagged "expression_statement" false false true 3 6
      [flagged "identifier" false false false 3 5 [], openBracket,
       flagged ";" false true true 6 6 []]]

end Sample

namespace SourceUnit

/-- The letter in front of the bracket takes two bytes, so that it stands at the third. -/
theorem parse_locates_openBracket :
    Sample.faultyTree.FlagsFaults ∧
    ∃ error,
      parse (fun _ _ => some Sample.faultyTree) "a.ts" Sample.faultyText .typeScript =
        .error error ∧
      error.message = "Parse error: syntax error in a.ts at 2:3" ∧
      Sample.faultyTree.firstFault? = some Sample.openBracket := by
  have flagged : Sample.faultyTree.FlagsFaults := by decide
  have located := @parse_locates (fun _ _ => some Sample.faultyTree) Sample.faultyText .typeScript
    Sample.faultyTree "a.ts" rfl flagged
  obtain ⟨error, row, column, refused, _, rowEq, columnEq, message, found⟩ :=
    located.2.2 (Sample.faultyTree.preorder.take 6) Sample.openBracket
      (Sample.faultyTree.preorder.drop 7) rfl (by decide) rfl
  have rowIs : row = 2 := rowEq.trans (by decide)
  have columnIs : column = 3 := columnEq.trans (by decide)
  subst rowIs columnIs
  exact ⟨flagged, error, refused, message, found⟩

end SourceUnit

end SourceQuote

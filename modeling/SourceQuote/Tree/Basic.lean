import SourceQuote.Text.Span

/-!
Contract: syntax trees over a source text.

Owns: nodes with their kind, field, flags and byte range; the ways to reach
children; the pre-order view; nodes together with their siblings; and the
promise that a grammar makes about a tree and its text.

Does not own: how a tree comes about. Trees are values given from outside.
-/

namespace SourceQuote

/-- What a tree says about one node, its children apart. -/
structure NodeInfo where
  /-- The kind; for a token without a kind of its own, its text. -/
  kind : String
  /-- The field of the parent that the node stands in. -/
  field : Option String
  /-- Whether the node has a kind of its own in the grammar. -/
  named : Bool
  /-- Whether the node covers text that the grammar could not read. -/
  isError : Bool
  /-- Whether the node stands for a token that is not in the text. -/
  isMissing : Bool
  /-- Whether the node or one below it is an error or missing. -/
  hasError : Bool
  start : Nat
  /-- The byte after the last. -/
  stop : Nat
deriving DecidableEq, Repr

inductive Node where
  | mk (info : NodeInfo) (children : List Node)
deriving Repr

namespace Node

def info : Node → NodeInfo
  | .mk info _ => info

def children : Node → List Node
  | .mk _ children => children

def kind (node : Node) : String := node.info.kind

def start (node : Node) : Nat := node.info.start

def stop (node : Node) : Nat := node.info.stop

def text (source : String) (node : Node) : String :=
  Text.slice source node.start node.stop

/-- The children that have a kind of their own. -/
def namedChildren (node : Node) : List Node :=
  node.children.filter fun child => child.info.named

def fieldChild? (node : Node) (field : String) : Option Node :=
  node.children.find? fun child => child.info.field = some field

mutual

/-- The nodes of a tree, each before those below it and those after it. -/
def preorder : Node → List Node
  | .mk info children => .mk info children :: preorderList children

/-- The nodes of several trees, one tree after the other. -/
def preorderList : List Node → List Node
  | [] => []
  | node :: rest => preorder node ++ preorderList rest

end

mutual

/-- The first node that is an error or missing, looking only below children that
say they hold one. -/
def firstFault? : Node → Option Node
  | .mk info children =>
      if info.isError || info.isMissing then some (.mk info children)
      else firstFaultIn? children

/-- The first such node among several trees. -/
def firstFaultIn? : List Node → Option Node
  | [] => none
  | node :: rest =>
      if node.info.hasError then
        match firstFault? node with
        | some fault => some fault
        | none => firstFaultIn? rest
      else
        firstFaultIn? rest

end

end Node

/-- A node among its siblings. -/
structure Placed where
  /-- The siblings before the node, the nearest first. -/
  before : List Node
  node : Node
  /-- The siblings after the node, the nearest first. -/
  after : List Node

namespace Placed

/-- Each of some siblings among the others. -/
def among (before : List Node) : List Node → List Placed
  | [] => []
  | node :: rest => ⟨before, node, rest⟩ :: among (node :: before) rest

def children (node : Node) : List Placed :=
  among [] node.children

mutual

/-- All nodes below a node in pre-order, each among its siblings. -/
def descendants : Node → List Placed
  | .mk _ children => descendantsFrom [] children

/-- Some siblings and all nodes below them in pre-order. -/
def descendantsFrom (before : List Node) : List Node → List Placed
  | [] => []
  | node :: rest =>
      ⟨before, node, rest⟩ :: (descendants node ++ descendantsFrom (node :: before) rest)

end

/-- All nodes of a tree in pre-order, each among its siblings. -/
def all (root : Node) : List Placed :=
  ⟨[], root, []⟩ :: descendants root

end Placed

end SourceQuote

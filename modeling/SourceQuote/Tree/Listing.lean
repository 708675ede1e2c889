import SourceQuote.Tree.Basic

/-!
Contract: syntax trees written one node a line.

Owns: reading a listing. Each line is one node in pre-order with six columns
between tabs: depth, flags, first byte, byte after the last, field, kind. The
flags are `n` named, `e` error, `m` missing, `h` holds an error, `-` for none;
`-` stands for no field. A node's children are the lines after it that are one
deeper, up to the next line that is not deeper than the node itself.

A kind may hold any character but a tab and a line feed.
-/

namespace SourceQuote.Node

/-- A line of a listing: the depth and the node's data. -/
def readLine? (line : String) : Option (Nat × NodeInfo) :=
  match line.splitOn "\t" with
  | [depth, flags, start, stop, field, kind] => do
      let depth ← depth.toNat?
      let start ← start.toNat?
      let stop ← stop.toNat?
      let marks := flags.toList
      return (depth, {
        kind := kind
        field := if field = "-" then none else some field
        named := marks.contains 'n'
        isError := marks.contains 'e'
        isMissing := marks.contains 'm'
        hasError := marks.contains 'h'
        start := start
        stop := stop })
  | _ => none

/-- Puts a line in front of trees that follow it: those deeper than the line
become its children. -/
def adopt (line : Nat × NodeInfo) (following : List (Nat × Node)) : List (Nat × Node) :=
  let below := following.takeWhile fun entry => line.1 < entry.1
  (line.1, .mk line.2 (below.map Prod.snd)) :: following.drop below.length

/-- The tree of a listing, none if a line is malformed or there is not one
root. -/
def ofListing? (listing : String) : Option Node := do
  let lines ← (listing.splitOn "\n").mapM readLine?
  match lines.reverse.foldl (fun following line => adopt line following) [] with
  | [(_, root)] => some root
  | _ => none

end SourceQuote.Node

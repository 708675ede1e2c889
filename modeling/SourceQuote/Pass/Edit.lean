import SourceQuote.Text.Span

/-!
Contract: edits of a text by byte offsets.

Owns: the type, the order in which edits are made, and their application.

An edit replaces the bytes of a range by a text. Edits are made in the order of
where they start, then of where they stop; edits that agree in both keep the
order in which they were given. All other bytes are copied.
-/

namespace SourceQuote

/-- The replacement of a range of bytes by a text. -/
structure Edit where
  start : Nat
  stop : Nat
  text : String
deriving DecidableEq, Repr

namespace Edit

def le (first second : Edit) : Bool :=
  first.start < second.start || (first.start == second.start && first.stop ≤ second.stop)

/-- The text from byte `cursor` on, with edits made in the order given. -/
def applyFrom (source : String) (cursor : Nat) : List Edit → String
  | [] => Text.slice source cursor source.utf8ByteSize
  | edit :: rest =>
      Text.slice source cursor edit.start ++ edit.text ++ applyFrom source edit.stop rest

def apply (source : String) (edits : List Edit) : String :=
  applyFrom source 0 (edits.mergeSort le)

end Edit

end SourceQuote

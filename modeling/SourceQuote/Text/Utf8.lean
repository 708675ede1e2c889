/-!
Contract: where a byte sequence stops being UTF-8.

Owns: the first fault of a byte sequence, with its position and the number of
bytes at fault, and the words for it.

Does not own: decoding. Whether bytes are UTF-8 at all is decided by the
standard library's decoder; this module only says where and how they are not.
-/

namespace SourceQuote.Text

/-- The first place at which bytes are not UTF-8. -/
inductive Utf8Fault where
  /-- `length` bytes at `index` can begin no character. -/
  | invalid (length index : Nat)
  /-- The bytes end inside the character that begins at `index`. -/
  | incomplete (index : Nat)
deriving DecidableEq, Repr

def Utf8Fault.message : Utf8Fault → String
  | .invalid length index =>
      s!"invalid utf-8 sequence of {length} bytes from index {index}"
  | .incomplete index => s!"incomplete utf-8 byte sequence from index {index}"

/-- What must follow a first byte: the range of the second byte and the number
of further continuation bytes after it. -/
structure Continuation where
  low : UInt8
  high : UInt8
  further : Nat

/-- What must follow `first`; none if no character of two or more bytes begins
with it. -/
def continuation? (first : UInt8) : Option Continuation :=
  if 0xC2 ≤ first ∧ first ≤ 0xDF then some ⟨0x80, 0xBF, 0⟩
  else if first = 0xE0 then some ⟨0xA0, 0xBF, 1⟩
  else if first = 0xED then some ⟨0x80, 0x9F, 1⟩
  else if 0xE1 ≤ first ∧ first ≤ 0xEF then some ⟨0x80, 0xBF, 1⟩
  else if first = 0xF0 then some ⟨0x90, 0xBF, 2⟩
  else if 0xF1 ≤ first ∧ first ≤ 0xF3 then some ⟨0x80, 0xBF, 2⟩
  else if first = 0xF4 then some ⟨0x80, 0x8F, 2⟩
  else none

/-- Progress inside a character: where it began, how many of its bytes were
read, the range that the next byte must lie in, and how many follow that one. -/
structure Pending where
  index : Nat
  read : Nat
  next : Continuation

/-- Reads bytes one by one. `position` counts the bytes read so far. -/
def firstFault (pending : Option Pending) (position : Nat) : List UInt8 → Option Utf8Fault
  | [] => pending.map fun p => .incomplete p.index
  | byte :: rest =>
      match pending with
      | none =>
          if byte < 0x80 then
            firstFault none (position + 1) rest
          else
            match continuation? byte with
            | none => some (.invalid 1 position)
            | some next => firstFault (some ⟨position, 1, next⟩) (position + 1) rest
      | some p =>
          if p.next.low ≤ byte ∧ byte ≤ p.next.high then
            match p.next.further with
            | 0 => firstFault none (position + 1) rest
            | further + 1 =>
                firstFault (some ⟨p.index, p.read + 1, ⟨0x80, 0xBF, further⟩⟩)
                  (position + 1) rest
          else
            some (.invalid p.read p.index)

/-- The first fault of a byte sequence, none if it is UTF-8 throughout. -/
def utf8Fault? (bytes : List UInt8) : Option Utf8Fault :=
  firstFault none 0 bytes

end SourceQuote.Text

/-!
Contract: the SHA-256 digest of a byte sequence.

Owns: padding, the message schedule, the compression of one block, and the
digest in hexadecimal.

The state is eight 32-bit words and all sums wrap at 32 bits.
-/

namespace SourceQuote.Sha256

/-- The 64 round constants: the first 32 bits of the fractional parts of the
cube roots of the first 64 primes. -/
def roundConstants : Array UInt32 := #[
  0x428a2f98, 0x71374491, 0xb5c0fbcf, 0xe9b5dba5, 0x3956c25b, 0x59f111f1, 0x923f82a4,
  0xab1c5ed5, 0xd807aa98, 0x12835b01, 0x243185be, 0x550c7dc3, 0x72be5d74, 0x80deb1fe,
  0x9bdc06a7, 0xc19bf174, 0xe49b69c1, 0xefbe4786, 0x0fc19dc6, 0x240ca1cc, 0x2de92c6f,
  0x4a7484aa, 0x5cb0a9dc, 0x76f988da, 0x983e5152, 0xa831c66d, 0xb00327c8, 0xbf597fc7,
  0xc6e00bf3, 0xd5a79147, 0x06ca6351, 0x14292967, 0x27b70a85, 0x2e1b2138, 0x4d2c6dfc,
  0x53380d13, 0x650a7354, 0x766a0abb, 0x81c2c92e, 0x92722c85, 0xa2bfe8a1, 0xa81a664b,
  0xc24b8b70, 0xc76c51a3, 0xd192e819, 0xd6990624, 0xf40e3585, 0x106aa070, 0x19a4c116,
  0x1e376c08, 0x2748774c, 0x34b0bcb5, 0x391c0cb3, 0x4ed8aa4a, 0x5b9cca4f, 0x682e6ff3,
  0x748f82ee, 0x78a5636f, 0x84c87814, 0x8cc70208, 0x90befffa, 0xa4506ceb, 0xbef9a3f7,
  0xc67178f2]

structure State where
  a : UInt32
  b : UInt32
  c : UInt32
  d : UInt32
  e : UInt32
  f : UInt32
  g : UInt32
  h : UInt32

/-- The state before the first block: the first 32 bits of the fractional parts
of the square roots of the first eight primes. -/
def initial : State :=
  ⟨0x6a09e667, 0xbb67ae85, 0x3c6ef372, 0xa54ff53a,
    0x510e527f, 0x9b05688c, 0x1f83d9ab, 0x5be0cd19⟩

def rotateRight (word amount : UInt32) : UInt32 :=
  (word >>> amount) ||| (word <<< (32 - amount))

/-- The number of zero bytes that complete the last block. -/
def paddingZeros (size : Nat) : Nat :=
  (119 - size % 64) % 64

/-- A number as eight bytes, the most significant first. -/
def lengthBytes (bits : Nat) : List UInt8 :=
  (List.range 8).map fun i => (bits >>> (8 * (7 - i))).toUInt8

/-- A message with its delimiter, zeros and length in bits: whole blocks of 64
bytes. -/
def pad (message : ByteArray) : ByteArray :=
  message ++ ByteArray.mk
    ((0x80 :: List.replicate (paddingZeros message.size) 0) ++
      lengthBytes (8 * message.size)).toArray

/-- The byte at an index, zero past the end. -/
def byteAt (bytes : ByteArray) (index : Nat) : UInt32 :=
  (bytes.data.getD index 0).toUInt32

/-- The word at an index, the most significant byte first. -/
def wordAt (bytes : ByteArray) (index : Nat) : UInt32 :=
  (byteAt bytes index <<< 24) ||| (byteAt bytes (index + 1) <<< 16) |||
    (byteAt bytes (index + 2) <<< 8) ||| byteAt bytes (index + 3)

/-- The small sigma with rotations 7 and 18 and shift 3. -/
def sigma0 (word : UInt32) : UInt32 :=
  rotateRight word 7 ^^^ rotateRight word 18 ^^^ (word >>> 3)

/-- The small sigma with rotations 17 and 19 and shift 10. -/
def sigma1 (word : UInt32) : UInt32 :=
  rotateRight word 17 ^^^ rotateRight word 19 ^^^ (word >>> 10)

/-- The first `count` words of the schedule of the block that begins at `start`. -/
def scheduleTo (bytes : ByteArray) (start : Nat) : Nat → Array UInt32
  | 0 => #[]
  | count + 1 =>
      let words := scheduleTo bytes start count
      if count < 16 then
        words.push (wordAt bytes (start + 4 * count))
      else
        words.push (sigma1 (words.getD (count - 2) 0) + words.getD (count - 7) 0 +
          sigma0 (words.getD (count - 15) 0) + words.getD (count - 16) 0)

def round (state : State) (constant word : UInt32) : State :=
  let sum1 := rotateRight state.e 6 ^^^ rotateRight state.e 11 ^^^ rotateRight state.e 25
  let choice := (state.e &&& state.f) ^^^ (~~~state.e &&& state.g)
  let first := state.h + sum1 + choice + constant + word
  let sum0 := rotateRight state.a 2 ^^^ rotateRight state.a 13 ^^^ rotateRight state.a 22
  let majority := (state.a &&& state.b) ^^^ (state.a &&& state.c) ^^^ (state.b &&& state.c)
  ⟨first + (sum0 + majority), state.a, state.b, state.c,
    state.d + first, state.e, state.f, state.g⟩

/-- The state after the block that begins at `start`. -/
def compress (bytes : ByteArray) (state : State) (start : Nat) : State :=
  let words := scheduleTo bytes start 64
  let last := (List.range 64).foldl
    (fun state i => round state (roundConstants.getD i 0) (words.getD i 0)) state
  ⟨state.a + last.a, state.b + last.b, state.c + last.c, state.d + last.d,
    state.e + last.e, state.f + last.f, state.g + last.g, state.h + last.h⟩

def finalState (message : ByteArray) : State :=
  let padded := pad message
  (List.range (padded.size / 64)).foldl
    (fun state block => compress padded state (64 * block)) initial

def wordDigits (word : UInt32) : List Char :=
  (List.range 8).map fun i =>
    Nat.digitChar ((word >>> (4 * (7 - i)).toUInt32) &&& 0xF).toNat

/-- The digest of a message, 64 hexadecimal digits. -/
def hexDigest (message : ByteArray) : String :=
  let state := finalState message
  String.ofList <|
    [state.a, state.b, state.c, state.d, state.e, state.f, state.g, state.h].flatMap wordDigits

end SourceQuote.Sha256

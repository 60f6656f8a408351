import Cuckoo.Hash.Digest

/-!
# The digest of bytes that arrive in pieces

A `Stream` holds the lanes over the complete blocks seen so far and the bytes of the block that is
still open. The open block is kept as two little-endian words, filled from their low ends, so what
has not arrived yet is zero: **the open block is always the padded tail that `Digest.finish`
expects**, and a digest can be taken at any point without ending the stream.

Bytes enter one at a time (`Stream.push`), so how they were cut into pieces cannot matter.
-/

set_option autoImplicit false

namespace Cuckoo.Hash

/-- A hash computation that is under way. -/
structure Stream where
  /-- The lanes over the complete blocks. -/
  lanes : Digest
  /-- How many bytes the complete blocks hold. -/
  mixed : UInt64
  /-- The open block, padded with zeros. -/
  open₁ : UInt64
  open₂ : UInt64
  /-- How many bytes of the open block have arrived. -/
  filled : Nat
  deriving Repr, DecidableEq

namespace Stream

/-- A stream that has seen nothing. -/
def start (seed : UInt64) : Stream := ⟨Digest.start seed, 0, 0, 0, 0⟩

/-- Takes in one byte; the sixteenth byte of a block completes it. -/
def push (s : Stream) (byte : UInt8) : Stream :=
  if s.filled < 8 then
    { s with open₁ := s.open₁ ||| (byte.toUInt64 <<< (8 * s.filled).toUInt64), filled := s.filled + 1 }
  else
    let open₂ := s.open₂ ||| (byte.toUInt64 <<< (8 * (s.filled - 8)).toUInt64)
    if s.filled < 15 then { s with open₂, filled := s.filled + 1 }
    else ⟨s.lanes.mix s.open₁ open₂, s.mixed + 16, 0, 0, 0⟩

/-- Takes in a piece. -/
def write (s : Stream) (piece : List UInt8) : Stream := piece.foldl push s

/-- The digest of everything taken in so far. -/
def digest (s : Stream) : Digest :=
  s.lanes.finish s.open₁ s.open₂ (s.mixed + UInt64.ofNat s.filled)

end Stream

end Cuckoo.Hash

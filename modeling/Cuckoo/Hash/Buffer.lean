import Cuckoo.Hash.Digest

/-!
# The digest of long pieces

A `Buffer` takes in a piece as a whole. Bytes that make no block yet wait in a block that is overwritten in
place. A piece that is long enough completes the block in wait; the blocks behind are mixed straight
from the piece, and what is left of it waits in turn.

**No byte is ever cleared.** Behind the bytes that wait stand what is left of earlier blocks, and the digest
must not look there.
-/

set_option autoImplicit false

namespace Cuckoo.Hash

/-- A hash computation that is under way, with a block of bytes to keep what waits. -/
structure Buffer where
  /-- The lanes over the complete blocks. -/
  lanes : Digest
  /-- How many bytes the complete blocks hold. -/
  mixed : UInt64
  block : Vector UInt8 16
  /-- How many bytes of the block wait; those behind them mean nothing. -/
  filled : Fin 16
  deriving Repr, DecidableEq

namespace Buffer

/-- A buffer that has seen nothing. -/
def start (seed : UInt64) : Buffer :=
  ⟨Digest.start seed, 0, Vector.replicate 16 0, ⟨0, by decide⟩⟩

/-- The bytes that wait for the rest of their block. -/
def waiting (b : Buffer) : List UInt8 := b.block.toList.take b.filled

/-- Writes bytes over those of a block, from a place on. -/
def overwrite (block : Vector UInt8 16) (place : Nat) (bytes : List UInt8) : Vector UInt8 16 :=
  Vector.ofFn fun i => if place ≤ i.val then bytes.getD (i.val - place) (block.get i) else block.get i

/-- Completes the block in wait, if there is one, with the first bytes of a piece that is long enough.
Returns the rest of the piece. -/
def complete (b : Buffer) (piece : List UInt8) : Buffer × List UInt8 :=
  if b.filled.val = 0 then (b, piece)
  else
    let wanted := 16 - b.filled.val
    let block := overwrite b.block b.filled (piece.take wanted)
    let lanes := b.lanes.mix (wordOfBytes block.toList) (wordOfBytes (block.toList.drop 8))
    (⟨lanes, b.mixed + 16, block, ⟨0, by decide⟩⟩, piece.drop wanted)

/-- Mixes the complete blocks of a piece, where no byte waits, and lets the rest of it wait. -/
def drain (b : Buffer) (piece : List UInt8) : Buffer :=
  let blocks := piece.length / 16
  let (lanes, rest) := Digest.mixBlocks blocks b.lanes piece
  ⟨lanes, b.mixed + 16 * UInt64.ofNat blocks, overwrite b.block 0 rest,
    ⟨piece.length % 16, Nat.mod_lt _ (by decide)⟩⟩

/-- Takes in a piece. -/
def write (b : Buffer) (piece : List UInt8) : Buffer :=
  if room : b.filled + piece.length < 16 then
    { b with block := overwrite b.block b.filled piece, filled := ⟨b.filled + piece.length, room⟩ }
  else
    let (b, rest) := b.complete piece
    b.drain rest

/-- The digest of everything taken in so far. -/
def digest (b : Buffer) : Digest :=
  b.lanes.finish (wordOfBytes b.waiting) (wordOfBytes (b.waiting.drop 8))
    (b.mixed + UInt64.ofNat b.filled)

end Buffer

end Cuckoo.Hash

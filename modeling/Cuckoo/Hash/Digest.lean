/-!
# The 128-bit digest of a byte string

MurmurHash3 in its 64-bit, 128-bit-output form. Two 64-bit lanes start at the seed; every block of
16 bytes is read as two little-endian words and mixed into the lanes; the tail of fewer than 16
bytes is padded with zeros and enters through the same scrambling but without the lane step; last,
the length is folded in and the lanes are avalanched.

`Digest.ofBytes` is the definition for a string that is given whole. `Cuckoo/Hash/Stream.lean`
computes the same digest from bytes that arrive in pieces.
-/

set_option autoImplicit false

namespace Cuckoo.Hash

/-- Two 64-bit words: the running lanes of the hash, and in the end its digest. -/
structure Digest where
  first : UInt64
  second : UInt64
  deriving Repr, DecidableEq

/-- Rotation of a word to the left, by an amount below 64. -/
def rotateLeft (x : UInt64) (amount : UInt64) : UInt64 :=
  (x <<< amount) ||| (x >>> (64 - amount))

/-- Spreads every bit of a word over all of it. -/
def avalanche (x : UInt64) : UInt64 :=
  let x := (x ^^^ (x >>> 33)) * 0xff51afd7ed558ccd
  let x := (x ^^^ (x >>> 33)) * 0xc4ceb9fe1a85ec53
  x ^^^ (x >>> 33)

/-- What the first word of a block contributes to the first lane. -/
def scrambleFirst (k : UInt64) : UInt64 :=
  rotateLeft (k * 0x87c37b91114253d5) 31 * 0x4cf5ad432745937f

/-- What the second word of a block contributes to the second lane. -/
def scrambleSecond (k : UInt64) : UInt64 :=
  rotateLeft (k * 0x4cf5ad432745937f) 33 * 0x87c37b91114253d5

/-- The word with the given little-endian bytes; of more than eight bytes the first eight count. -/
def wordOfBytes (bytes : List UInt8) : UInt64 :=
  (bytes.take 8).foldr (fun byte word => (word <<< 8) ||| byte.toUInt64) 0

namespace Digest

/-- Both lanes at the seed. -/
def start (seed : UInt64) : Digest := ⟨seed, seed⟩

/-- Mixes one block, given as its two words, into the lanes. -/
def mix (lanes : Digest) (k₁ k₂ : UInt64) : Digest :=
  let first := (rotateLeft (lanes.first ^^^ scrambleFirst k₁) 27 + lanes.second) * 5 + 0x52dce729
  let second := (rotateLeft (lanes.second ^^^ scrambleSecond k₂) 31 + first) * 5 + 0x38495ab5
  ⟨first, second⟩

/-- Folds in the zero-padded tail words and the length, and avalanches the lanes. A tail word of
zero contributes nothing, so a missing tail needs no case of its own. -/
def finish (lanes : Digest) (k₁ k₂ length : UInt64) : Digest :=
  let first := lanes.first ^^^ scrambleFirst k₁ ^^^ length
  let second := lanes.second ^^^ scrambleSecond k₂ ^^^ length
  let first := first + second
  let second := second + first
  let first := avalanche first
  let second := avalanche second
  let first := first + second
  ⟨first, second + first⟩

/-- Mixes the given number of 16-byte blocks from the front of `bytes`, in order, and returns the
lanes with the bytes behind the blocks. -/
def mixBlocks : (blocks : Nat) → (lanes : Digest) → List UInt8 → Digest × List UInt8
  | 0, lanes, bytes => (lanes, bytes)
  | blocks + 1, lanes, bytes =>
    mixBlocks blocks (lanes.mix (wordOfBytes bytes) (wordOfBytes (bytes.drop 8))) (bytes.drop 16)

/-- The digest of a whole byte string. -/
def ofBytes (seed : UInt64) (bytes : List UInt8) : Digest :=
  let (lanes, tail) := mixBlocks (bytes.length / 16) (start seed) bytes
  lanes.finish (wordOfBytes tail) (wordOfBytes (tail.drop 8)) (UInt64.ofNat bytes.length)

end Digest

end Cuckoo.Hash

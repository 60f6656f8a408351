import Cuckoo.Hash.Item
import Cuckoo.Hash.Stream

/-!
# The two halves of a hash

An object is known to a filter by a `Key`: the first word of its digest, cut in two. The low half
picks a bucket, the high half makes the fingerprint. The halves are independent, so that objects
that share a bucket do not tend to share a fingerprint.
-/

set_option autoImplicit false

namespace Cuckoo.Hash

/-- What a filter knows of an object. -/
structure Key where
  /-- Picks the home bucket. -/
  index : Int32
  /-- Makes the fingerprint. -/
  tag : UInt32
  deriving DecidableEq

/-- The seed with which objects are hashed unless another one is chosen. Filters with different
seeds have nothing to say to each other. -/
def defaultSeed : UInt64 := 9001

/-- Cuts the first word of a digest in two. -/
def Key.ofDigest (digest : Digest) : Key :=
  ⟨digest.first.toUInt32.toInt32, (digest.first >>> 32).toUInt32⟩

/-- The digest of an object, piece after piece. -/
def Item.digest (seed : UInt64) (item : Item) : Digest :=
  (item.pieces.foldl Stream.write (Stream.start seed)).digest

def Item.key (seed : UInt64) (item : Item) : Key := .ofDigest (item.digest seed)

/-- A 32-bit hash of a 32-bit number: the low half of the digest of its four bytes. -/
def int32 (value : Int32) : Int32 :=
  (Digest.ofBytes 0 (Bytes.littleEndian 4 value.toUInt32.toNat)).first.toUInt32.toInt32

end Cuckoo.Hash

import Cuckoo.Hash.Key

/-!
# Words that both placement rules use

The home bucket of a hash is its remainder modulo the bucket count, and the distance between the two
buckets of a fingerprint comes from a second hash of the fingerprint.
-/

set_option autoImplicit false

namespace Cuckoo.Placement

/-- The remainder of `x` on division by a positive `m`, made non-negative. -/
def nonNegativeRemainder (x m : Int64) : Int64 :=
  let r := x % m
  if r < 0 then r + m else r

/-- The non-negative remainder of a signed number modulo a bucket count. A count beyond the signed
range exceeds the size of every signed number, so that one addition is enough. -/
def remainder (x : Int64) (m : UInt64) : UInt64 :=
  if m ≤ 0x7fffffffffffffff then (nonNegativeRemainder x m.toInt64).toUInt64
  else x.toUInt64 + (if x < 0 then m else 0)

/-- The home bucket under both rules. -/
def homeByRemainder (hash : Int32) (m : UInt64) : UInt64 := remainder hash.toInt64 m

/-- The hash of a fingerprint that separates its two buckets; the low half of the fingerprint goes
into it. -/
def mix (fingerprint : UInt64) : Int64 :=
  (Hash.int32 fingerprint.toUInt32.toInt32).toInt64

end Cuckoo.Placement

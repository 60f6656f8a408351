import Cuckoo.Placement
import Cuckoo.Placement.Remainder

/-!
# Alternate buckets by exclusive or

The bits of the bucket are flipped where the hash of the fingerprint has ones, and cut to the range.
Where the bucket count is a power of two, cutting is masking, which commutes with flipping, so
flipping twice leads back.
-/

set_option autoImplicit false

namespace Cuckoo.Placement

/-- The largest bucket count of this rule: the largest power of two in the signed 64-bit range. -/
def maxPowerOfTwo : UInt64 := 0x4000000000000000

/-- The least power of two that is not below `n`. -/
def ceilPowerOfTwo (n : Nat) : Nat := if n ≤ 1 then 1 else 1 <<< ((n - 1).log2 + 1)

/-- Alternate buckets by exclusive or, for powers of two up to 2^62. -/
def xor : Placement where
  home := homeByRemainder
  alternate bucket fingerprint m := (bucket ^^^ (mix fingerprint).toUInt64) &&& (m - 1)
  check m :=
    if 1 <<< m.toNat.log2 = m.toNat ∧ m ≤ maxPowerOfTwo then pure () else throw (.notPowerOfTwo m)
  round m :=
    let rounded := ceilPowerOfTwo m.toNat
    if rounded ≤ maxPowerOfTwo.toNat then pure (UInt64.ofNat rounded) else throw (.noPowerOfTwo m)

end Cuckoo.Placement

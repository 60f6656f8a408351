import Cuckoo.Failure

/-!
# The two buckets of a fingerprint

A fingerprint lives in one of two buckets: the home bucket, which the index half of the key picks, or
its alternate, which is computed from the home bucket and the fingerprint alone. The object is gone
once its fingerprint is stored, so a stored fingerprint can only be moved because **the alternate of
the alternate is the bucket one started from**.

A `Placement` is a rule for these buckets, together with the bucket counts for which it works.
-/

set_option autoImplicit false

namespace Cuckoo

/-- A rule that gives every fingerprint two buckets in a table of `m` buckets. -/
structure Placement where
  /-- The bucket that an index hash picks. -/
  home : (hash : Int32) → (m : UInt64) → UInt64
  /-- The other bucket of a fingerprint that may be in `bucket`. -/
  alternate : (bucket fingerprint m : UInt64) → UInt64
  /-- Objects to bucket counts for which the rule does not work. -/
  check : (m : UInt64) → Except Failure Unit
  /-- Raises a bucket count to one for which the rule works. -/
  round : (m : UInt64) → Except Failure UInt64

namespace Placement

/-- Does the rule work for `m` buckets? -/
def Accepts (P : Placement) (m : UInt64) : Prop := P.check m = .ok ()

/-- What a rule promises for the bucket counts that it accepts: buckets are in range, and taking the
alternate twice leads back. -/
structure Lawful (P : Placement) : Prop where
  home_lt : ∀ {m : UInt64} (hash : Int32), P.Accepts m → P.home hash m < m
  alternate_lt : ∀ {m bucket : UInt64} (fingerprint : UInt64), P.Accepts m → bucket < m →
    P.alternate bucket fingerprint m < m
  alternate_alternate : ∀ {m bucket : UInt64} (fingerprint : UInt64), P.Accepts m → bucket < m →
    P.alternate (P.alternate bucket fingerprint m) fingerprint m = bucket

/-- The alternate bucket, after a look at the bucket count and the bucket. -/
def checkedAlternate (P : Placement) (bucket fingerprint m : UInt64) : Except Failure UInt64 := do
  P.check m
  if bucket < m then pure (P.alternate bucket fingerprint m)
  else throw (.bucketOutOfRange bucket m)

end Placement

end Cuckoo

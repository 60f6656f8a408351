import Cuckoo.Placement
import Cuckoo.Refusal

/-!
# Table dimensions for a wanted accuracy

How many slots a bucket should have, how wide a slot should be, and how many buckets are needed. The
larger the buckets, the fuller a table gets before insertions begin to fail, at the price of slightly
wider fingerprints for the same false positive rate. So small rates ask for large buckets.
-/

set_option autoImplicit false

namespace Cuckoo

/-- The bucket sizes for which the reachable load is known. -/
inductive BucketSize where
  | two
  | four
  | eight
  deriving Repr, DecidableEq

namespace BucketSize

def slots : BucketSize → Nat
  | .two => 2
  | .four => 4
  | .eight => 8

def ofSlots : Nat → Checked BucketSize
  | 2 => pure .two
  | 4 => pure .four
  | 8 => pure .eight
  | slots => throw (.bucketSize slots)

/-- The share of slots that can be filled with confidence. -/
def loadFactor : BucketSize → Float
  | .two => 0.84
  | .four => 0.955
  | .eight => 0.98

end BucketSize

namespace Plan

/-- Largest false positive rate that the plans are made for. -/
def maxRate : Float := 0.99

def defaultRate : Float := 0.03

def maxBits : Nat := 64

/-- The bucket size for a false positive rate. -/
def bucketSize (rate : Float) : BucketSize :=
  if rate ≤ 0.00001 then .eight else if rate ≤ 0.002 then .four else .two

/-- The exponent of the power of two nearest to `x` in logarithmic terms, for a finite `x` that is at
least 1. The significand lies in [1, 2) and is compared with the square root of two by its square;
a tie would go down, though no significand is that root. -/
def nearestLog2 (x : Float) : Nat :=
  let exponent := (x.toBits.toNat >>> 52) % (1 <<< 11) - 1023
  let significand := x.toBits.toNat % (1 <<< 52) + 1 <<< 52
  if 1 <<< 105 < significand * significand then exponent + 1 else exponent

def checkRate (rate : Float) : Except Failure Unit :=
  if 0 < rate ∧ rate < 1 then pure () else throw (.rateOutOfRange rate)

/-- The slot width for a false positive rate: a look-up compares with up to two buckets full of
fingerprints, so the width is the logarithm of twice the slots per bucket over the rate. -/
def entryBits (rate : Float) (slots : Nat) : Except Failure Nat := do
  checkRate rate
  if rate < minRate then throw (.rateTooSmall rate)
  let bits := nearestLog2 (2.0 * (UInt64.ofNat slots).toFloat / rate)
  if bits ≤ maxBits then pure bits else throw (.fingerprintTooWide bits rate slots)

/-- The number of buckets of the given size that hold `slots` slots: even, and at least 2. -/
def bucketsForSlots (slots : Nat) (size : BucketSize) : Nat :=
  let buckets := max 1 ((slots + size.slots - 1) / size.slots)
  buckets + buckets % 2

/-- The number of buckets that hold `insertions` fingerprints at the reachable load. -/
def buckets (insertions : UInt64) (size : BucketSize) : UInt64 :=
  let slots := (insertions.toFloat / size.loadFactor).ceil.toUInt64
  UInt64.ofNat (bucketsForSlots slots.toNat size)

/-- The number of buckets, raised to one for which a placement rule works. -/
def bucketsFor (P : Placement) (insertions : UInt64) (size : BucketSize) :
    Except Failure UInt64 :=
  P.round (buckets insertions size)

end Plan

end Cuckoo

import Cuckoo.Proofs.Hash.Bounded
import Cuckoo.Proofs.Placement.Lawful

/-!
# The two buckets of a fingerprint, in bounded numbers

The placement rules compute with signed numbers of 64 bits. Here a sum, a product or a remainder that
leaves their range leaves the run stuck, and so do a bucket count or a bucket that a rule is not made
for. A fingerprint is mixed by hashing it, which is a run of its own (`mix?`).

For the counts that a rule accepts **no run is stuck** (`Scheme.home?_eq`, `Scheme.alternate?_eq`). The one
sum that may leave the range is the one of a bucket and an offset, and it is looked at before it is
taken: the bucket is lowered by the count first, which is in range and enough.
-/

set_option autoImplicit false

namespace Cuckoo

open Runs

namespace Placement

/-- A number, if it is in the signed 64-bit range. -/
def int64? (x : Int) : Option Int := if FitsInt64 x then some x else none

/-- The non-negative remainder, for divisors and quotients in range. -/
def remEuclid? (x m : Int) : Option Int :=
  if m = 0 ∨ x = -0x8000000000000000 ∧ m = -1 then none else int64? (x % m)

/-- The sum of a bucket and an offset, where the bucket is lowered by the count for as long as the sum is
out of range. The run is stuck where lowering leaves the range, and where it would not end. -/
def reducedSum? (index offset m : Int) : Option Int :=
  if FitsInt64 (index + offset) then some (index + offset)
  else if _room : 0 < m ∧ FitsInt64 (index - m) then reducedSum? (index - m) offset m
  else none
  termination_by (index + 0x8000000000000000).toNat
  decreasing_by
    obtain ⟨positive, fits⟩ := _room
    unfold FitsInt64 at fits
    omega

/-- `1` for an even bucket and `-1` for an odd one. -/
def paritySign? (bucket : UInt64) : Option Int := do
  let double ← int64? (2 * (bucket &&& 1).toNat)
  int64? (1 - double)

/-- A fingerprint, spread over the signed numbers of 32 bits. -/
def mix? (fingerprint : UInt64) : Option Int64 := do
  let hash ← Hash.int32? fingerprint.toUInt32.toInt32
  pure hash.toInt64

def homeByRemainder? (hash : Int32) (m : UInt64) : Option UInt64 := do
  if m = 0 then none
  if m ≤ maxBuckets then
    let bucket ← remEuclid? hash.toInt m.toNat
    pure (UInt64.ofNat bucket.toNat)
  else pure (homeByRemainder hash m)

def alternateByXor? (bucket fingerprint m : UInt64) : Option UInt64 := do
  if ¬ (2 ^ m.toNat.log2 = m.toNat ∧ bucket < m) then none
  let mixed ← mix? fingerprint
  let mask ← if 1 ≤ m then some (m - 1) else none
  pure ((bucket ^^^ mixed.toUInt64) &&& mask)

def alternateByOffset? (bucket fingerprint m : UInt64) : Option UInt64 := do
  if ¬ (m % 2 = 0 ∧ m ≤ maxBuckets ∧ bucket < m) then none
  let sign ← paritySign? bucket
  let mixed ← mix? fingerprint
  let offset ← int64? (sign * (mixed ||| 1).toInt)
  let sum ← reducedSum? bucket.toInt64.toInt offset m.toInt64.toInt
  let alternate ← remEuclid? sum m.toInt64.toInt
  pure (UInt64.ofNat alternate.toNat)

end Placement

namespace Scheme

def home? : Scheme → (hash : Int32) → (m : UInt64) → Option UInt64
  | .parityOffset => Placement.homeByRemainder?
  | .xor => Placement.homeByRemainder?

def alternate? : Scheme → (bucket fingerprint m : UInt64) → Option UInt64
  | .parityOffset => Placement.alternateByOffset?
  | .xor => Placement.alternateByXor?

end Scheme

namespace Placement

/-! ## Single steps -/

theorem int64?_eq {x : Int} (fits : FitsInt64 x) : int64? x = some x := if_pos fits

theorem remEuclid?_eq {x m : Int} (pos : 0 < m) (fits : FitsInt64 m) :
    remEuclid? x m = some (x % m) := by
  have low := Int.emod_nonneg x (Int.ne_of_gt pos)
  have high := Int.emod_lt_of_pos x pos
  unfold remEuclid?
  rw [if_neg (by omega)]
  refine int64?_eq ?_
  unfold FitsInt64 at fits ⊢
  omega

/-- The sum is found in range, and is the true one up to a multiple of the count. -/
theorem exists_reducedSum? {index offset m : Int} (low : 0 ≤ index) (high : index < m)
    (top : FitsInt64 m) (fits : FitsInt64 offset) :
    ∃ sum, reducedSum? index offset m = some sum ∧ sum % m = (index + offset) % m := by
  unfold FitsInt64 at top fits
  rw [reducedSum?]
  split
  next => exact ⟨_, rfl, rfl⟩
  next overflows =>
    -- the sum is beyond the largest number, so one step down is possible and enough
    unfold FitsInt64 at overflows
    have room : FitsInt64 (index - m) := by
      unfold FitsInt64
      omega
    have enough : FitsInt64 (index - m + offset) := by
      unfold FitsInt64
      omega
    rw [dif_pos ⟨by omega, room⟩, reducedSum?, if_pos enough]
    refine ⟨_, rfl, ?_⟩
    rw [show index - m + offset = index + offset - m by omega, Int.sub_emod_right]

theorem paritySign?_eq (bucket : UInt64) : paritySign? bucket = some (paritySign bucket).toInt := by
  have low : (bucket &&& 1).toNat = bucket.toNat % 2 := by
    rw [UInt64.toNat_and]
    exact Nat.and_two_pow_sub_one_eq_mod bucket.toNat 1
  unfold paritySign?
  rw [low, toInt_paritySign, int64?_eq (by unfold FitsInt64; omega)]
  exact int64?_eq (by unfold FitsInt64; omega)

theorem mix?_eq (fingerprint : UInt64) : mix? fingerprint = some (mix fingerprint) := by
  unfold mix?
  rw [Hash.int32?_eq]
  rfl

/-! ## Both rules -/

/-- A non-negative number is turned into the word that has this value. -/
theorem ofNat_toNat_eq {x : Int} {word : UInt64} (value : (word.toNat : Int) = x) :
    UInt64.ofNat x.toNat = word := by
  rw [← value, Int.toNat_natCast, UInt64.ofNat_toNat]

theorem fits_toInt (x : Int64) : FitsInt64 x.toInt := by
  have least := x.le_toInt
  have greatest := x.toInt_lt
  unfold FitsInt64
  omega

theorem fits_toNat {m : UInt64} (small : m ≤ maxBuckets) : FitsInt64 m.toNat := by
  rw [← toInt_toInt64 small]
  exact fits_toInt _

theorem homeByRemainder?_eq (hash : Int32) {m : UInt64} (pos : 0 < m) (small : m ≤ maxBuckets) :
    homeByRemainder? hash m = some (homeByRemainder hash m) := by
  have positive : 0 < (m.toNat : Int) := Int.ofNat_lt.mpr (UInt64.lt_iff_toNat_lt.mp pos)
  have some_bucket : ¬ m = 0 := by
    rintro rfl
    exact Nat.lt_irrefl 0 (UInt64.lt_iff_toNat_lt.mp pos)
  have signed : homeByRemainder hash m =
      (nonNegativeRemainder hash.toInt64 m.toInt64).toUInt64 := if_pos small
  obtain ⟨value, -⟩ := nonNegativeRemainder_lt (x := hash.toInt64) pos small
  rw [Int32.toInt_toInt64, ← signed] at value
  unfold homeByRemainder?
  rw [if_neg some_bucket, if_pos small, remEuclid?_eq positive (fits_toNat small)]
  exact congrArg some (ofNat_toNat_eq value)

theorem alternateByXor?_eq {m bucket : UInt64} (fingerprint : UInt64) (accepts : xor.Accepts m)
    (below : bucket < m) :
    alternateByXor? bucket fingerprint m = some (xor.alternate bucket fingerprint m) := by
  obtain ⟨power, -⟩ := xor_accepts_iff.mp accepts
  have one : 1 ≤ m := by
    have pos : 1 ≤ m.toNat := power ▸ Nat.two_pow_pos _
    exact UInt64.le_iff_toNat_le.mpr pos
  unfold alternateByXor?
  rw [if_neg (not_not_intro ⟨power, below⟩)]
  refine bind_eq_some (mix?_eq fingerprint) ?_
  rw [if_pos one]
  rfl

theorem alternateByOffset?_eq {m bucket : UInt64} (fingerprint : UInt64)
    (accepts : parityOffset.Accepts m) (below : bucket < m) :
    alternateByOffset? bucket fingerprint m =
      some (parityOffset.alternate bucket fingerprint m) := by
  obtain ⟨pos, even, small⟩ := parityOffset_accepts_iff.mp accepts
  have signed : bucket ≤ maxBuckets := UInt64.le_trans (UInt64.le_of_lt below) small
  have positive : 0 < (m.toNat : Int) := Int.ofNat_lt.mpr (UInt64.lt_iff_toNat_lt.mp pos)
  -- the product of a sign and an odd number is a number of 64 bits, being the value of one
  have product := toInt_paritySign_mul bucket (toInt_or_one_emod_two (mix fingerprint))
  have offset : FitsInt64 ((paritySign bucket).toInt * (mix fingerprint ||| 1).toInt) := by
    rw [toInt_paritySign, ← product]
    exact fits_toInt _
  have inside : (bucket.toNat : Int) < m.toNat := Int.ofNat_lt.mpr (UInt64.lt_iff_toNat_lt.mp below)
  obtain ⟨sum, reduced, same⟩ :=
    exists_reducedSum? (Int.natCast_nonneg _) inside (fits_toNat small) offset
  obtain ⟨value, -⟩ := toNat_parityOffset_alternate fingerprint accepts below
  rw [← toInt_paritySign, ← same] at value
  unfold alternateByOffset?
  rw [if_neg (not_not_intro ⟨even, small, below⟩), toInt_toInt64 signed, toInt_toInt64 small]
  refine bind_eq_some (paritySign?_eq bucket) ?_
  refine bind_eq_some (mix?_eq fingerprint) ?_
  refine bind_eq_some (int64?_eq offset) ?_
  refine bind_eq_some reduced ?_
  refine bind_eq_some (remEuclid?_eq positive (fits_toNat small)) ?_
  exact congrArg some (ofNat_toNat_eq value)

end Placement

namespace Scheme

open Placement

theorem home?_eq (s : Scheme) (hash : Int32) {m : UInt64} (accepts : s.placement.Accepts m) :
    s.home? hash m = some (s.placement.home hash m) := by
  cases s with
  | parityOffset =>
    obtain ⟨pos, -, small⟩ := parityOffset_accepts_iff.mp accepts
    exact homeByRemainder?_eq hash pos small
  | xor =>
    obtain ⟨power, small⟩ := xor_accepts_iff.mp accepts
    refine homeByRemainder?_eq hash ?_ (UInt64.le_trans small (by decide))
    rw [UInt64.lt_iff_toNat_lt, ← power]
    exact Nat.two_pow_pos _

theorem alternate?_eq (s : Scheme) {m bucket : UInt64} (fingerprint : UInt64)
    (accepts : s.placement.Accepts m) (below : bucket < m) :
    s.alternate? bucket fingerprint m = some (s.placement.alternate bucket fingerprint m) := by
  cases s with
  | parityOffset => exact alternateByOffset?_eq fingerprint accepts below
  | xor => exact alternateByXor?_eq fingerprint accepts below

end Scheme

end Cuckoo

import Cuckoo.Placement
import Cuckoo.Placement.Remainder

/-!
# Alternate buckets by an odd offset

The hash of the fingerprint, forced odd, is added to an even bucket and subtracted from an odd one,
modulo the bucket count. Where the count is even the two buckets differ in parity, so the second
application takes the opposite sign and undoes the first.

The sum is taken in 64-bit signed numbers. Close to the largest counts it may leave their range;
then the bucket is first lowered by the count, which changes nothing modulo the count.
-/

set_option autoImplicit false

namespace Cuckoo.Placement

/-- The largest bucket count of any rule: bucket indexes are signed 64-bit numbers. -/
def maxBuckets : UInt64 := 0x7fffffffffffffff

/-- Is the number in the signed 64-bit range? -/
def FitsInt64 (x : Int) : Prop := -0x8000000000000000 ≤ x ∧ x < 0x8000000000000000

instance (x : Int) : Decidable (FitsInt64 x) := inferInstanceAs (Decidable (_ ∧ _))

/-- The difference of two numbers is exact where it is in range. -/
theorem toInt_sub_of_fits {a b : Int64} (h : FitsInt64 (a.toInt - b.toInt)) :
    (a - b).toInt = a.toInt - b.toInt := by
  rw [Int64.toInt_sub]
  obtain ⟨low, high⟩ := h
  exact Int.bmod_eq_of_le (by simpa using low) (by simpa using high)

/-- The sum of `index` and `offset`, where `index` is lowered by `m` until the sum is in range, as
long as lowering is possible. For `0 ≤ index < m` lowering once is enough. -/
def reducedSum (index offset m : Int64) : Int64 :=
  if FitsInt64 (index.toInt + offset.toInt) then index + offset
  else if _room : 0 < m.toInt ∧ FitsInt64 (index.toInt - m.toInt) then
    reducedSum (index - m) offset m
  else index + offset
  termination_by (index.toInt + 0x8000000000000000).toNat
  decreasing_by
    obtain ⟨positive, fits⟩ := _room
    rw [toInt_sub_of_fits fits]
    unfold FitsInt64 at fits
    omega

/-- `1` for an even bucket and `-1` for an odd one. -/
def paritySign (bucket : UInt64) : Int64 := 1 - 2 * (bucket &&& 1).toInt64

/-- Alternate buckets by an odd offset, for positive even counts in the signed range. -/
def parityOffset : Placement where
  home := homeByRemainder
  alternate bucket fingerprint m :=
    let offset := paritySign bucket * (mix fingerprint ||| 1)
    (nonNegativeRemainder (reducedSum bucket.toInt64 offset m.toInt64) m.toInt64).toUInt64
  check m :=
    if 0 < m ∧ m % 2 = 0 ∧ m ≤ maxBuckets then pure () else throw (.notPositiveEven m)
  round m := do
    let least := max m 2
    if least = 0xffffffffffffffff then throw (.noEvenCount m)
    let rounded := least + least % 2
    if rounded ≤ maxBuckets then pure rounded else throw (.notPositiveEven rounded)

end Cuckoo.Placement

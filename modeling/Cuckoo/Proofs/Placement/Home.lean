import Cuckoo.Proofs.Placement.Bounded
import Mathlib.Data.Int.ModEq

/-!
# Home buckets are remainders

The home bucket of a hash is computed in two ways. A bucket count in the signed 64-bit range divides as a
signed number. A larger one is no signed number, but it exceeds the size of every one of them, and one
addition of words stands in for the division; the sum of a negative number and the count wraps around.

**Which way is taken cannot be seen**: for every positive bucket count, also one for which neither placement
rule works, the result is the remainder of Euclidean division.
-/

set_option autoImplicit false

namespace Cuckoo.Placement

/-- `v` is a bucket, and the given number modulo the bucket count. -/
structure Remains (x : Int) (m : UInt64) (v : Int) : Prop where
  nonneg : 0 ≤ v
  lt : v < m.toNat
  congruent : v ≡ x [ZMOD m.toNat]

/-- The remainder of a signed number modulo a bucket count, in bounded numbers. A count in the signed range
divides, which leaves the run stuck for 0; a larger one is added to the number taken as a word, and the sum
wraps around. -/
def remainder? (x m : Int) : Option Int :=
  if FitsInt64 m then remEuclid? x m
  else some ((x % 2 ^ 64 + if x < 0 then m else 0) % 2 ^ 64)

theorem remains_iff {m : UInt64} (pos : 1 ≤ m) (x v : Int) :
    Remains x m v ↔ v = x % m.toNat := by
  have positive : 0 < (m.toNat : Int) := Int.ofNat_lt.mpr (UInt64.le_iff_toNat_le.mp pos)
  constructor
  · rintro ⟨nonneg, lt, congruent⟩
    rw [← Int.emod_eq_of_lt nonneg lt]
    exact congruent
  · rintro rfl
    exact ⟨Int.emod_nonneg x (Int.ne_of_gt positive), Int.emod_lt_of_pos x positive,
      Int.mod_modEq x m.toNat⟩

/-- As a word a number below zero is larger by 2^64. -/
theorem toNat_toUInt64_eq (x : Int64) : (x.toUInt64.toNat : Int) = x.toInt % 2 ^ 64 := by
  have bits : x.toUInt64.toNat = x.toBitVec.toNat := rfl
  have small := x.toBitVec.isLt
  rw [bits, ← Int64.toInt_toBitVec, BitVec.toInt_eq_toNat_cond]
  split <;> omega

theorem toNat_wrappedSum (x : Int64) (m : UInt64) :
    ((x.toUInt64 + if x < 0 then m else 0).toNat : Int) =
      (x.toInt % 2 ^ 64 + if x.toInt < 0 then (m.toNat : Int) else 0) % 2 ^ 64 := by
  have negative : x < 0 ↔ x.toInt < 0 := Int64.lt_iff_toInt_lt
  rw [UInt64.toNat_add, Int.natCast_emod, Int.natCast_add, toNat_toUInt64_eq]
  by_cases below : x.toInt < 0
  · rw [if_pos (negative.mpr below), if_pos below]
    rfl
  · rw [if_neg (mt negative.mp below), if_neg below]
    rfl

/-- A count beyond the signed range makes up for a number below zero, and no other number reaches it. -/
theorem wrappedSum_eq {x m : Int} (fits : FitsInt64 x) (large : ¬ FitsInt64 m) (pos : 0 < m)
    (word : m < 2 ^ 64) : (x % 2 ^ 64 + if x < 0 then m else 0) % 2 ^ 64 = x % m := by
  unfold FitsInt64 at fits large
  split
  next below =>
    have turn : x % m = x + m := by
      rw [← Int.add_emod_right, Int.emod_eq_of_lt (by omega) (by omega)]
    omega
  next =>
    have whole : x % m = x := Int.emod_eq_of_lt (by omega) (by omega)
    omega

theorem fits_toNat_iff (m : UInt64) : FitsInt64 m.toNat ↔ m ≤ maxBuckets := by
  rw [UInt64.le_iff_toNat_le, show maxBuckets.toNat = 2 ^ 63 - 1 from rfl]
  unfold FitsInt64
  omega

theorem toNat_remainder (x : Int64) {m : UInt64} (pos : 1 ≤ m) :
    ((remainder x m).toNat : Int) = x.toInt % m.toNat := by
  unfold remainder
  split
  next small => exact (nonNegativeRemainder_lt pos small).1
  next large =>
    rw [toNat_wrappedSum]
    exact wrappedSum_eq (fits_toInt x) (mt (fits_toNat_iff m).mp large)
      (Int.ofNat_lt.mpr (UInt64.le_iff_toNat_le.mp pos)) (Int.ofNat_lt.mpr m.toNat_lt)

/-- **The remainder is never stuck**, in either of its two ways. -/
theorem remainder?_eq (x : Int64) {m : UInt64} (pos : 1 ≤ m) :
    remainder? x.toInt m.toNat = some ((remainder x m).toNat : Int) := by
  have positive : 0 < (m.toNat : Int) := Int.ofNat_lt.mpr (UInt64.le_iff_toNat_le.mp pos)
  rw [toNat_remainder x pos]
  unfold remainder?
  split
  next small => exact remEuclid?_eq positive small
  next large =>
    exact congrArg some (wrappedSum_eq (fits_toInt x) large positive (Int.ofNat_lt.mpr m.toNat_lt))

theorem home_eq_remainder (s : Scheme) (hash : Int32) (m : UInt64) :
    s.placement.home hash m = remainder hash.toInt64 m := by
  cases s <;> rfl

/-- **The home bucket of a hash is its remainder for every positive bucket count**, under both rules and
whether the rule works for the count or not: it is the one number from 0 to the count that is the hash
modulo the count. The same holds of the remainder of every signed number, the least included. It is
computed without being stuck; and with counts up to the largest word the two ways in which this is done
give what the one formula gives. -/
theorem home_is_the_remainder :
    (∀ (s : Scheme) (hash : Int32) (m : UInt64), 1 ≤ m →
      remainder? hash.toInt m.toNat = some ((s.placement.home hash m).toNat : Int) ∧
      ∀ v : Int, Remains hash.toInt m v ↔ v = (s.placement.home hash m).toNat) ∧
    ∀ (x : Int64) (m : UInt64), 1 ≤ m →
      remainder? x.toInt m.toNat = some ((remainder x m).toNat : Int) ∧
      (∀ v : Int, Remains x.toInt m v ↔ v = (remainder x m).toNat) ∧
      ((remainder x m).toNat : Int) = x.toInt % m.toNat := by
  have general : ∀ (x : Int64) (m : UInt64), 1 ≤ m →
      remainder? x.toInt m.toNat = some ((remainder x m).toNat : Int) ∧
      (∀ v : Int, Remains x.toInt m v ↔ v = (remainder x m).toNat) ∧
      ((remainder x m).toNat : Int) = x.toInt % m.toNat := by
    intro x m pos
    refine ⟨remainder?_eq x pos, fun v => ?_, toNat_remainder x pos⟩
    rw [toNat_remainder x pos]
    exact remains_iff pos x.toInt v
  refine ⟨fun s hash m pos => ?_, general⟩
  obtain ⟨run, remains, -⟩ := general hash.toInt64 m pos
  rw [Int32.toInt_toInt64] at run remains
  rw [home_eq_remainder]
  exact ⟨run, remains⟩

/-- The least number leaves 0 modulo the first count beyond the signed range and all but itself modulo the
largest; and among three buckets a hash of -7 is at home in the last. -/
theorem remainders_across_the_switch :
    Remains (-0x8000000000000000) 0x8000000000000000 0 ∧
    remainder? (-0x8000000000000000) 0xffffffffffffffff = some 0x7fffffffffffffff ∧
    Placement.xor.home (-7) 3 = 2 := by
  obtain ⟨homes, remainders⟩ := home_is_the_remainder
  obtain ⟨-, first, -⟩ := remainders Int64.minValue 0x8000000000000000 (by decide)
  obtain ⟨last, -⟩ := remainders Int64.minValue 0xffffffffffffffff (by decide)
  obtain ⟨-, small⟩ := homes .xor (-7) 3 (by decide)
  refine ⟨(first 0).mpr rfl, last, ?_⟩
  exact UInt64.toNat.inj (Int.ofNat.inj ((small 2).mp ⟨by decide, by decide, by decide⟩)).symm

end Cuckoo.Placement

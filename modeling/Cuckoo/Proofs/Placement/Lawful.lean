import Cuckoo.Proofs.Runs
import Cuckoo.Scheme
import Mathlib.Algebra.Group.Nat.Defs

/-!
# The named placement rules are lawful

Both rules keep buckets in range and lead back. For exclusive or this is masking, which commutes with
flipping bits. For the odd offset it is arithmetic modulo an even bucket count, once the signed sum is
known to be exact (`toInt_reducedSum_emod`): **an odd distance changes the parity of the bucket, so the
second move has the opposite sign**.
-/

set_option autoImplicit false

namespace Cuckoo.Placement

open Runs

/-! ## Remainders -/

theorem toInt_toInt64 {m : UInt64} (h : m ≤ maxBuckets) : m.toInt64.toInt = m.toNat := by
  have small : m.toNat < 2 ^ 63 := by
    have := UInt64.le_iff_toNat_le.mp h
    have := show maxBuckets.toNat = 2 ^ 63 - 1 from rfl
    omega
  rw [← Int64.toInt_toBitVec, UInt64.toBitVec_toInt64, BitVec.toInt_eq_toNat_bmod,
    UInt64.toNat_toBitVec]
  exact Int.bmod_eq_of_le (by omega) (by omega)

theorem toNat_toUInt64 {x : Int64} (h : 0 ≤ x.toInt) : (x.toUInt64.toNat : Int) = x.toInt := by
  rw [Int64.toNat_toUInt64_of_le (Int64.le_iff_toInt_le.mpr h), ← Int64.toNat_toInt]
  exact Int.toNat_of_nonneg h

/-- The non-negative remainder is the one of Euclidean division. -/
theorem toInt_nonNegativeRemainder {x m : Int64} (pos : 0 < m.toInt) :
    (nonNegativeRemainder x m).toInt = x.toInt % m.toInt := by
  have low := Int.emod_nonneg x.toInt (Int.ne_of_gt pos)
  have high := Int.emod_lt_of_pos x.toInt pos
  have top := m.toInt_lt
  have negative : x % m < 0 ↔ (x % m).toInt < 0 := Int64.lt_iff_toInt_lt
  have truncated := Int64.toInt_mod x m
  rw [Int.tmod_eq_emod] at truncated
  unfold nonNegativeRemainder
  dsimp only
  split at truncated
  · -- nothing was rounded towards zero
    rw [if_neg (by rw [negative]; omega)]
    omega
  · have below : (x % m).toInt = x.toInt % m.toInt - m.toInt := by omega
    rw [if_pos (by rw [negative]; omega), Int64.toInt_add, below, Int.sub_add_cancel]
    exact Int.bmod_eq_of_le (by omega) (by omega)

theorem nonNegativeRemainder_lt {x : Int64} {m : UInt64} (pos : 0 < m) (h : m ≤ maxBuckets) :
    ((nonNegativeRemainder x m.toInt64).toUInt64.toNat : Int) = x.toInt % m.toNat ∧
      (nonNegativeRemainder x m.toInt64).toUInt64 < m := by
  have positive : 0 < (m.toNat : Int) := by
    have := UInt64.lt_iff_toNat_lt.mp pos
    exact Int.ofNat_lt.mpr this
  have value := toInt_nonNegativeRemainder (x := x) (m := m.toInt64) (toInt_toInt64 h ▸ positive)
  rw [toInt_toInt64 h] at value
  have low := Int.emod_nonneg x.toInt (Int.ne_of_gt positive)
  have high := Int.emod_lt_of_pos x.toInt positive
  have same := toNat_toUInt64 (x := nonNegativeRemainder x m.toInt64) (value ▸ low)
  refine ⟨same.trans value, ?_⟩
  rw [UInt64.lt_iff_toNat_lt]
  omega

theorem homeByRemainder_lt (hash : Int32) {m : UInt64} (pos : 0 < m) (h : m ≤ maxBuckets) :
    homeByRemainder hash m < m := by
  have signed : homeByRemainder hash m =
      (nonNegativeRemainder hash.toInt64 m.toInt64).toUInt64 := if_pos h
  rw [signed]
  exact (nonNegativeRemainder_lt pos h).2

/-! ## Exclusive or -/

theorem xor_accepts_iff {m : UInt64} :
    xor.Accepts m ↔ 2 ^ m.toNat.log2 = m.toNat ∧ m ≤ maxPowerOfTwo := by
  rw [← Nat.one_shiftLeft]
  unfold Accepts xor
  dsimp only
  split
  next ok => exact ⟨fun _ => ok, fun _ => rfl⟩
  next wrong => exact ⟨fun h => (by cases h), fun h => absurd h wrong⟩

theorem xor_accepts_iff_two_pow {m : UInt64} : xor.Accepts m ↔ ∃ k ≤ 62, m.toNat = 2 ^ k := by
  rw [xor_accepts_iff, UInt64.le_iff_toNat_le]
  constructor
  · rintro ⟨power, small⟩
    refine ⟨m.toNat.log2, ?_, power.symm⟩
    rw [← power] at small
    exact (Nat.pow_le_pow_iff_right (by decide)).mp small
  · rintro ⟨k, le, value⟩
    rw [value, Nat.log2_two_pow]
    exact ⟨rfl, Nat.pow_le_pow_right (by decide) le⟩

theorem xor_accepts_ofNat_iff {m : Nat} (lt : m < 2 ^ 63) :
    xor.Accepts (UInt64.ofNat m) ↔ ∃ k ≤ 62, m = 2 ^ k := by
  rw [xor_accepts_iff_two_pow, UInt64.toNat_ofNat_of_lt' (Nat.lt_trans lt (by decide))]

theorem toNat_and_sub_one {m : UInt64} (power : 2 ^ m.toNat.log2 = m.toNat) (x : UInt64) :
    (x &&& (m - 1)).toNat = x.toNat % 2 ^ m.toNat.log2 := by
  have pos : 1 ≤ m.toNat := power ▸ Nat.two_pow_pos _
  have less : (m - 1).toNat = 2 ^ m.toNat.log2 - 1 := by
    have one : (1 : UInt64) ≤ m := UInt64.le_iff_toNat_le.mpr pos
    rw [UInt64.toNat_sub_of_le _ _ one, power]
    rfl
  rw [UInt64.toNat_and, less, Nat.and_two_pow_sub_one_eq_mod]

theorem xor_lawful : xor.Lawful where
  home_lt := by
    intro m hash accepts
    obtain ⟨power, small⟩ := xor_accepts_iff.mp accepts
    refine homeByRemainder_lt hash ?_ (UInt64.le_trans small (by decide))
    rw [UInt64.lt_iff_toNat_lt, ← power]
    exact Nat.two_pow_pos _
  alternate_lt := by
    intro m bucket fingerprint accepts _
    obtain ⟨power, -⟩ := xor_accepts_iff.mp accepts
    show _ &&& (m - 1) < m
    rw [UInt64.lt_iff_toNat_lt, toNat_and_sub_one power]
    exact Nat.lt_of_lt_of_eq (Nat.mod_lt _ (Nat.two_pow_pos _)) power
  alternate_alternate := by
    intro m bucket fingerprint accepts below
    obtain ⟨power, -⟩ := xor_accepts_iff.mp accepts
    show ((bucket ^^^ (mix fingerprint).toUInt64) &&& (m - 1) ^^^ (mix fingerprint).toUInt64) &&&
      (m - 1) = bucket
    apply UInt64.toNat.inj
    rw [UInt64.lt_iff_toNat_lt, ← power] at below
    rw [toNat_and_sub_one power, UInt64.toNat_xor, toNat_and_sub_one power, UInt64.toNat_xor,
      Nat.xor_mod_two_pow, Nat.mod_mod, Nat.xor_mod_two_pow, Nat.xor_assoc, Nat.xor_self,
      Nat.xor_zero, Nat.mod_eq_of_lt below]

/-! ## An odd offset -/

theorem parityOffset_accepts_iff {m : UInt64} :
    parityOffset.Accepts m ↔ 0 < m ∧ m % 2 = 0 ∧ m ≤ maxBuckets := by
  unfold Accepts parityOffset
  dsimp only
  split
  next ok => exact ⟨fun _ => ok, fun _ => rfl⟩
  next wrong => exact ⟨fun h => (by cases h), fun h => absurd h wrong⟩

theorem parityOffset_accepts_iff_toNat {m : UInt64} :
    parityOffset.Accepts m ↔ 2 ≤ m.toNat ∧ m.toNat % 2 = 0 ∧ m.toNat ≤ 2 ^ 63 - 1 := by
  rw [parityOffset_accepts_iff, UInt64.lt_iff_toNat_lt, UInt64.le_iff_toNat_le, ← UInt64.toNat_inj,
    UInt64.toNat_mod]
  show 0 < m.toNat ∧ m.toNat % 2 = 0 ∧ m.toNat ≤ 2 ^ 63 - 1 ↔ _
  omega

theorem parityOffset_accepts_ofNat_iff {m : Nat} (lt : m < 2 ^ 63) :
    parityOffset.Accepts (UInt64.ofNat m) ↔ 0 < m ∧ m % 2 = 0 := by
  rw [parityOffset_accepts_iff_toNat, UInt64.toNat_ofNat_of_lt' (Nat.lt_trans lt (by decide))]
  omega

theorem toInt_add_of_fits {a b : Int64} (h : FitsInt64 (a.toInt + b.toInt)) :
    (a + b).toInt = a.toInt + b.toInt := by
  rw [Int64.toInt_add]
  obtain ⟨low, high⟩ := h
  exact Int.bmod_eq_of_le (by simpa using low) (by simpa using high)

/-- For a bucket in range the sum is exact, up to a multiple of the bucket count. -/
theorem toInt_reducedSum_emod {index offset m : Int64} (low : 0 ≤ index.toInt)
    (high : index.toInt < m.toInt) :
    (reducedSum index offset m).toInt % m.toInt = (index.toInt + offset.toInt) % m.toInt := by
  have least := offset.le_toInt
  have greatest := offset.toInt_lt
  have top := m.toInt_lt
  rw [reducedSum]
  split
  next fits => rw [toInt_add_of_fits fits]
  next overflows =>
    -- the sum is beyond the largest number, so one step down is possible and enough
    have beyond : 2 ^ 63 ≤ index.toInt + offset.toInt := by
      unfold FitsInt64 at overflows
      omega
    have room : FitsInt64 (index.toInt - m.toInt) := by
      unfold FitsInt64
      omega
    rw [dif_pos ⟨by omega, room⟩, reducedSum, toInt_sub_of_fits room]
    have fits : FitsInt64 ((index - m).toInt + offset.toInt) := by
      rw [toInt_sub_of_fits room]
      unfold FitsInt64
      omega
    rw [toInt_sub_of_fits room] at fits
    rw [if_pos fits, toInt_add_of_fits (by rw [toInt_sub_of_fits room]; exact fits),
      toInt_sub_of_fits room, show index.toInt - m.toInt + offset.toInt =
        index.toInt + offset.toInt - m.toInt by omega, Int.sub_emod_right]

theorem toInt_or_one_emod_two (x : Int64) : (x ||| 1).toInt % 2 = 1 := by
  have bit : (x ||| 1).toBitVec.toNat % 2 = 1 := by
    rw [Int64.toBitVec_or, BitVec.toNat_or, Nat.or_mod_two_eq_one]
    exact Or.inr rfl
  rw [← Int64.toInt_toBitVec, BitVec.toInt_eq_toNat_cond]
  split <;> omega

theorem toInt_paritySign (bucket : UInt64) :
    (paritySign bucket).toInt = 1 - 2 * ((bucket.toNat : Int) % 2) := by
  have low : (bucket &&& 1).toNat = bucket.toNat % 2 := by
    rw [UInt64.toNat_and]
    exact Nat.and_two_pow_sub_one_eq_mod bucket.toNat 1
  rw [show (bucket.toNat : Int) % 2 = ((bucket.toNat % 2 : Nat) : Int) from rfl]
  unfold paritySign
  rcases Nat.mod_two_eq_zero_or_one bucket.toNat with even | odd
  · rw [show bucket &&& 1 = 0 from UInt64.toNat.inj (low.trans even), even]
    rfl
  · rw [show bucket &&& 1 = 1 from UInt64.toNat.inj (low.trans odd), odd]
    rfl

/-- The product of a sign and an odd number is exact: the one number that has no negation is even. -/
theorem toInt_paritySign_mul (bucket : UInt64) {x : Int64} (odd : x.toInt % 2 = 1) :
    (paritySign bucket * x).toInt = (1 - 2 * ((bucket.toNat : Int) % 2)) * x.toInt := by
  have least := x.le_toInt
  have greatest := x.toInt_lt
  rw [Int64.toInt_mul, toInt_paritySign]
  have sides : (bucket.toNat : Int) % 2 = 0 ∨ (bucket.toNat : Int) % 2 = 1 := by omega
  rcases sides with h | h <;> rw [h] <;> exact Int.bmod_eq_of_le (by omega) (by omega)

theorem toNat_parityOffset_alternate {m bucket : UInt64} (fingerprint : UInt64)
    (accepts : parityOffset.Accepts m) (below : bucket < m) :
    ((parityOffset.alternate bucket fingerprint m).toNat : Int) =
      (bucket.toNat + (1 - 2 * ((bucket.toNat : Int) % 2)) * (mix fingerprint ||| 1).toInt) %
        m.toNat ∧
    parityOffset.alternate bucket fingerprint m < m := by
  obtain ⟨pos, -, small⟩ := parityOffset_accepts_iff.mp accepts
  have inside : bucket ≤ maxBuckets := UInt64.le_trans (UInt64.le_of_lt below) small
  rw [UInt64.lt_iff_toNat_lt] at below
  obtain ⟨value, range⟩ := nonNegativeRemainder_lt
    (x := reducedSum bucket.toInt64 (paritySign bucket * (mix fingerprint ||| 1)) m.toInt64) pos small
  refine ⟨value.trans ?_, range⟩
  have sum := @toInt_reducedSum_emod bucket.toInt64
    (paritySign bucket * (mix fingerprint ||| 1)) m.toInt64
    (by rw [toInt_toInt64 inside]; omega)
    (by rw [toInt_toInt64 inside, toInt_toInt64 small]; omega)
  rwa [toInt_toInt64 inside, toInt_toInt64 small,
    toInt_paritySign_mul bucket (toInt_or_one_emod_two _)] at sum

/-- A move by an odd distance modulo an even number changes the parity, and the next move leads back. -/
theorem move_move {b d m : Int} (low : 0 ≤ b) (high : b < m) (even : m % 2 = 0) (odd : d % 2 = 1) :
    ((b + (1 - 2 * (b % 2)) * d) % m +
      (1 - 2 * ((b + (1 - 2 * (b % 2)) * d) % m % 2)) * d) % m = b := by
  have parity : ∀ x : Int, x % m % 2 = x % 2 := fun x =>
    Int.emod_emod_of_dvd x (Int.dvd_of_emod_eq_zero even)
  rw [parity]
  have sides : b % 2 = 0 ∨ b % 2 = 1 := by omega
  rcases sides with h | h
  · have moved : (b + (1 - 2 * (b % 2)) * d) % 2 = 1 := by rw [h]; omega
    rw [moved, h]
    calc ((b + (1 - 2 * 0) * d) % m + (1 - 2 * 1) * d) % m
        = (b + (1 - 2 * 0) * d + (1 - 2 * 1) * d) % m := Int.emod_add_emod _ _ _
      _ = b % m := by congr 1; omega
      _ = b := Int.emod_eq_of_lt low high
  · have moved : (b + (1 - 2 * (b % 2)) * d) % 2 = 0 := by rw [h]; omega
    rw [moved, h]
    calc ((b + (1 - 2 * 1) * d) % m + (1 - 2 * 0) * d) % m
        = (b + (1 - 2 * 1) * d + (1 - 2 * 0) * d) % m := Int.emod_add_emod _ _ _
      _ = b % m := by congr 1; omega
      _ = b := Int.emod_eq_of_lt low high

theorem parityOffset_lawful : parityOffset.Lawful where
  home_lt := by
    intro m hash accepts
    obtain ⟨pos, -, small⟩ := parityOffset_accepts_iff.mp accepts
    exact homeByRemainder_lt hash pos small
  alternate_lt := by
    intro m bucket fingerprint accepts below
    exact (toNat_parityOffset_alternate fingerprint accepts below).2
  alternate_alternate := by
    intro m bucket fingerprint accepts below
    obtain ⟨there, range⟩ := toNat_parityOffset_alternate fingerprint accepts below
    obtain ⟨back, -⟩ := toNat_parityOffset_alternate fingerprint accepts range
    obtain ⟨-, even, -⟩ := parityOffset_accepts_iff.mp accepts
    have even : (m.toNat : Int) % 2 = 0 := by
      have := congrArg UInt64.toNat even
      rw [UInt64.toNat_mod] at this
      exact_mod_cast this
    rw [UInt64.lt_iff_toNat_lt] at below
    -- both moves are now the same arithmetic, with the sign taken from the bucket they start in
    have leads := move_move (Int.natCast_nonneg bucket.toNat) (Int.ofNat_lt.mpr below) even
      (toInt_or_one_emod_two (mix fingerprint))
    rw [there] at back
    exact UInt64.toNat.inj (Int.ofNat.inj (back.trans leads))

end Cuckoo.Placement

theorem Cuckoo.Scheme.placement_lawful (s : Scheme) : s.placement.Lawful := by
  cases s with
  | parityOffset => exact Placement.parityOffset_lawful
  | xor => exact Placement.xor_lawful

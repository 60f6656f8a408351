import Cuckoo.Proofs.Placement.Lawful

/-!
# The two buckets of a fingerprint, at every size

What the named rules compute, over the unbounded integers and with the bucket counts written out. The
odd offset moves an even bucket up and an odd one down by the same distance, and wraps around at the
bucket count. The distance is odd and may exceed the bucket count many times over, in either direction;
the parity of the bucket still changes with every move, since the bucket count is even.

The checked form of a move answers exactly where the rule makes sense, so that its own answers can be
put back into it.
-/

set_option autoImplicit false

namespace Cuckoo.Placement

/-- The number of buckets that the odd offset moves a fingerprint by: its hash, forced odd. -/
def distance (fingerprint : UInt64) : Int :=
  2 * ((Hash.int32 fingerprint.toUInt32.toInt32).toInt / 2) + 1

/-- The direction of the move: up from an even bucket and down from an odd one. -/
def direction (bucket : UInt64) : Int := if bucket.toNat % 2 = 0 then 1 else -1

/-- The alternate of a bucket is in range, and its own alternate is the bucket. -/
structure Paired (P : Placement) (m bucket fingerprint : UInt64) : Prop where
  lt : P.alternate bucket fingerprint m < m
  back : P.alternate (P.alternate bucket fingerprint m) fingerprint m = bucket

/-- The odd offset pairs a bucket with one of the other parity, at the distance of the fingerprint. -/
structure OddlyPaired (m bucket fingerprint : UInt64) : Prop
    extends parityOffset.Paired m bucket fingerprint where
  value : ((parityOffset.alternate bucket fingerprint m).toNat : Int) =
    (bucket.toNat + direction bucket * distance fingerprint) % m.toNat
  parity : (parityOffset.alternate bucket fingerprint m).toNat % 2 = 1 - bucket.toNat % 2
  ne : parityOffset.alternate bucket fingerprint m ≠ bucket

/-! ## Moves -/

theorem Lawful.paired {P : Placement} (hP : P.Lawful) {m bucket : UInt64} (fingerprint : UInt64)
    (accepts : P.Accepts m) (below : bucket < m) : P.Paired m bucket fingerprint :=
  ⟨hP.alternate_lt fingerprint accepts below, hP.alternate_alternate fingerprint accepts below⟩

/-- Forcing a number odd rounds it down to an even one and adds one, also below zero. -/
theorem toInt_or_one (x : Int64) : (x ||| 1).toInt = 2 * (x.toInt / 2) + 1 := by
  have bits : (x ||| 1).toBitVec.toNat = 2 * (x.toBitVec.toNat / 2) + 1 := by
    have odd : (x.toBitVec.toNat ||| 1) % 2 = 1 := by
      rw [Nat.or_mod_two_eq_one]
      exact Or.inr rfl
    have half : (x.toBitVec.toNat ||| 1) / 2 = x.toBitVec.toNat / 2 := by
      rw [Nat.or_div_two]
      exact Nat.or_zero _
    rw [Int64.toBitVec_or, BitVec.toNat_or]
    show x.toBitVec.toNat ||| 1 = _
    omega
  rw [← Int64.toInt_toBitVec, ← Int64.toInt_toBitVec, BitVec.toInt_eq_toNat_cond,
    BitVec.toInt_eq_toNat_cond, bits]
  split <;> split <;> omega

theorem toInt_mix_or_one (fingerprint : UInt64) :
    (mix fingerprint ||| 1).toInt = distance fingerprint := by
  rw [toInt_or_one, mix, Int32.toInt_toInt64]
  rfl

theorem direction_eq (bucket : UInt64) :
    direction bucket = 1 - 2 * ((bucket.toNat : Int) % 2) := by
  unfold direction
  split <;> omega

theorem oddlyPaired {m bucket : UInt64} (fingerprint : UInt64) (accepts : parityOffset.Accepts m)
    (below : bucket < m) : OddlyPaired m bucket fingerprint := by
  obtain ⟨value, -⟩ := toNat_parityOffset_alternate fingerprint accepts below
  rw [toInt_mix_or_one, ← direction_eq] at value
  have parity : (parityOffset.alternate bucket fingerprint m).toNat % 2 = 1 - bucket.toNat % 2 := by
    obtain ⟨-, even, -⟩ := parityOffset_accepts_iff_toNat.mp accepts
    -- the remainder modulo an even number keeps the parity of the sum, and the distance is odd
    have kept := Int.emod_emod_of_dvd (bucket.toNat + direction bucket * distance fingerprint)
      (show (2 : Int) ∣ (m.toNat : Int) from Int.ofNat_dvd.mpr (Nat.dvd_of_mod_eq_zero even))
    rw [← value] at kept
    unfold direction distance at kept
    split at kept <;> omega
  refine ⟨parityOffset_lawful.paired fingerprint accepts below, value, parity, fun same => ?_⟩
  rw [same] at parity
  omega

/-! ## Checked moves -/

theorem checkedAlternate_eq_ok_iff {P : Placement} {m bucket fingerprint v : UInt64} :
    P.checkedAlternate bucket fingerprint m = .ok v ↔
      P.Accepts m ∧ bucket < m ∧ v = P.alternate bucket fingerprint m := by
  unfold checkedAlternate
  rw [Runs.bind_eq_ok_iff]
  constructor
  · rintro ⟨⟨⟩, accepts, run⟩
    split at run
    next below => exact ⟨accepts, below, (Except.ok.inj run).symm⟩
    next => cases run
  · rintro ⟨accepts, below, rfl⟩
    exact ⟨(), accepts, if_pos below⟩

theorem Lawful.checkedAlternate_checkedAlternate {P : Placement} (hP : P.Lawful)
    {m bucket fingerprint v : UInt64} (run : P.checkedAlternate bucket fingerprint m = .ok v) :
    P.checkedAlternate v fingerprint m = .ok bucket := by
  obtain ⟨accepts, below, rfl⟩ := checkedAlternate_eq_ok_iff.mp run
  have paired := hP.paired fingerprint accepts below
  exact checkedAlternate_eq_ok_iff.mpr ⟨accepts, paired.lt, paired.back.symm⟩

/-- **The two buckets of a fingerprint lead to each other at every size.** Exclusive or does so for the
powers of two up to 2^62, the odd offset for every positive even number in the signed range, where the
two buckets differ in parity and the distance between them is that of the fingerprint. These are the
bucket counts that the rules accept, and the checked move has an answer for them and the buckets in
range only, from which it leads back. -/
theorem paired_at_every_size :
    (∀ m : UInt64, xor.Accepts m ↔ ∃ k ≤ 62, m.toNat = 2 ^ k) ∧
    (∀ m bucket fingerprint : UInt64, (∃ k ≤ 62, m.toNat = 2 ^ k) → bucket < m →
      xor.Paired m bucket fingerprint) ∧
    (∀ m : UInt64,
      parityOffset.Accepts m ↔ 2 ≤ m.toNat ∧ m.toNat % 2 = 0 ∧ m.toNat ≤ 2 ^ 63 - 1) ∧
    (∀ m bucket fingerprint : UInt64, 2 ≤ m.toNat → m.toNat % 2 = 0 → m.toNat ≤ 2 ^ 63 - 1 →
      bucket < m → OddlyPaired m bucket fingerprint) ∧
    ∀ (s : Scheme) (m bucket fingerprint v : UInt64),
      (s.placement.checkedAlternate bucket fingerprint m = .ok v ↔
        s.placement.check m = .ok () ∧ bucket < m ∧
          v = s.placement.alternate bucket fingerprint m) ∧
      (s.placement.checkedAlternate bucket fingerprint m = .ok v →
        s.placement.checkedAlternate v fingerprint m = .ok bucket) := by
  refine ⟨fun m => xor_accepts_iff_two_pow, ?_, fun m => parityOffset_accepts_iff_toNat, ?_, ?_⟩
  · intro m bucket fingerprint power below
    exact xor_lawful.paired fingerprint (xor_accepts_iff_two_pow.mpr power) below
  · intro m bucket fingerprint two even small below
    exact oddlyPaired fingerprint (parityOffset_accepts_iff_toNat.mpr ⟨two, even, small⟩) below
  · intro s m bucket fingerprint v
    exact ⟨checkedAlternate_eq_ok_iff, s.placement_lawful.checkedAlternate_checkedAlternate⟩

/-- A move among 2^20 buckets, and one from the last bucket of the largest even count, where the sum
of bucket and offset is beyond the signed range. -/
theorem paired_at_the_largest_size :
    (xor.alternate 5 1 0x100000 = 576251 ∧
      xor.checkedAlternate 576251 1 0x100000 = .ok 5) ∧
    (distance 23 = -1325901627 ∧ direction 0x7ffffffffffffffd = -1 ∧
      parityOffset.checkedAlternate 0x7ffffffffffffffd 23 0x7ffffffffffffffe = .ok 1325901626 ∧
      parityOffset.checkedAlternate 1325901626 23 0x7ffffffffffffffe = .ok 0x7ffffffffffffffd) := by
  obtain ⟨-, near, accepts, far, checked⟩ := paired_at_every_size
  have moved : xor.alternate 5 1 0x100000 = 576251 := by decide +kernel
  have among : xor.Paired 0x100000 5 1 := near _ _ _ ⟨20, by decide, rfl⟩ (by decide)
  have power : xor.check 0x100000 = .ok () := rfl
  have apart : distance 23 = -1325901627 := by decide +kernel
  have down : direction 0x7ffffffffffffffd = -1 := by decide
  have oddly : OddlyPaired 0x7ffffffffffffffe 0x7ffffffffffffffd 23 :=
    far _ _ _ (by decide) (by decide) (by decide) (by decide)
  have wrapped : parityOffset.alternate 0x7ffffffffffffffd 23 0x7ffffffffffffffe = 1325901626 := by
    have value := oddly.value
    rw [apart, down] at value
    exact UInt64.toNat.inj (Int.ofNat.inj value)
  have even : parityOffset.check 0x7ffffffffffffffe = .ok () :=
    (accepts _).mpr (by decide)
  have there := (checked .parityOffset _ _ _ 1325901626).1.mpr ⟨even, by decide, wrapped.symm⟩
  refine ⟨⟨moved, ?_⟩, apart, down, there, (checked .parityOffset _ _ _ _).2 there⟩
  exact (checked .xor _ _ _ _).2 ((checked .xor _ _ _ _).1.mpr ⟨power, by decide, moved.symm⟩)

end Cuckoo.Placement

import Cuckoo.Proofs.Placement.Bounded
import Mathlib.Data.Int.ModEq

/-!
# The sum of a bucket and an offset

The sum is taken in signed numbers of 64 bits. Where it leaves their range, the bucket is lowered by the
bucket count and the sum is taken again. Lowering may itself leave the range, and the loop does not say how
often it is repeated. Here its reductions are counted (`countedSum?`). **Every run that ends gives the true
sum less so many bucket counts**, whatever it starts from, and makes no reduction where the sum is in range
(`Counted.of_countedSum?`).

For a bucket in range one reduction is enough: the bucket is not negative, so that only an offset above zero
can lead out of the range, and the lowered bucket is below zero.
-/

set_option autoImplicit false

namespace Cuckoo.Placement

/-- The sum of a bucket and an offset in bounded numbers, with the number of times that the bucket was
lowered by the count. The run is stuck where lowering leaves the range, and where the count is not positive,
so that it need not end. -/
def countedSum? (index offset m : Int) : Option (Nat × Int) :=
  if FitsInt64 (index + offset) then some (0, index + offset)
  else if _room : 0 < m ∧ FitsInt64 (index - m) then do
    let (reductions, sum) ← countedSum? (index - m) offset m
    pure (reductions + 1, sum)
  else none
  termination_by (index + 0x8000000000000000).toNat
  decreasing_by
    obtain ⟨positive, fits⟩ := _room
    unfold FitsInt64 at fits
    omega

/-! ## Runs from anywhere -/

section

variable {index offset m : Int}

theorem countedSum?_of_fits (fits : FitsInt64 (index + offset)) :
    countedSum? index offset m = some (0, index + offset) := by
  rw [countedSum?, if_pos fits]

/-- A run that begins with a reduction goes on from the lowered bucket. -/
theorem countedSum?_of_overflow (overflows : ¬ FitsInt64 (index + offset)) {reductions : Nat}
    {sum : Int} : countedSum? index offset m = some (reductions, sum) ↔
      (0 < m ∧ FitsInt64 (index - m)) ∧ ∃ more, reductions = more + 1 ∧
        countedSum? (index - m) offset m = some (more, sum) := by
  rw [countedSum?, if_neg overflows]
  by_cases room : 0 < m ∧ FitsInt64 (index - m)
  · rw [dif_pos room, Option.bind_eq_bind, Option.bind_eq_some_iff]
    constructor
    · rintro ⟨⟨more, _⟩, run, ends⟩
      cases ends
      exact ⟨room, more, rfl, run⟩
    · rintro ⟨-, more, rfl, run⟩
      exact ⟨(more, sum), run, rfl⟩
  · rw [dif_neg room]
    exact ⟨nofun, fun ends => absurd ends.1 room⟩

/-- What a run of the loop gives that ends after so many reductions. -/
structure Counted (index offset m : Int) (reductions : Nat) (sum : Int) : Prop where
  sum_eq : sum = index + offset - reductions * m
  reductions_eq_zero_iff : reductions = 0 ↔ FitsInt64 (index + offset)

theorem Counted.of_countedSum? : ∀ {reductions : Nat} {index sum : Int},
    countedSum? index offset m = some (reductions, sum) →
    Counted index offset m reductions sum := by
  intro reductions
  induction reductions with
  | zero =>
    intro index sum run
    by_cases fits : FitsInt64 (index + offset)
    · rw [countedSum?_of_fits fits] at run
      cases run
      exact ⟨by simp, fun _ => fits, fun _ => rfl⟩
    · obtain ⟨-, more, none, -⟩ := (countedSum?_of_overflow fits).mp run
      cases none
  | succ reductions ih =>
    intro index sum run
    by_cases fits : FitsInt64 (index + offset)
    · rw [countedSum?_of_fits fits] at run
      cases run
    · obtain ⟨-, more, same, run⟩ := (countedSum?_of_overflow fits).mp run
      cases same
      refine ⟨?_, nofun, fun inRange => absurd inRange fits⟩
      rw [(ih run).sum_eq, Int.natCast_succ, Int.add_mul]
      omega

/-- Lowering by the count changes nothing modulo the count. -/
theorem Counted.modEq {reductions : Nat} {sum : Int}
    (counted : Counted index offset m reductions sum) : sum ≡ index + offset [ZMOD m] := by
  rw [counted.sum_eq, Int.mul_comm]
  exact (Int.modEq_sub_modulus_mul_iff.mpr rfl).symm

end

/-- Where the counted loop ends, the sum of the placement rule is the one it ends with. -/
theorem toInt_reducedSum_of_countedSum? {offset m : Int64} :
    ∀ {reductions : Nat} {index : Int64} {sum : Int},
      countedSum? index.toInt offset.toInt m.toInt = some (reductions, sum) →
      (reducedSum index offset m).toInt = sum := by
  intro reductions
  induction reductions with
  | zero =>
    intro index sum run
    have fits := (Counted.of_countedSum? run).reductions_eq_zero_iff.mp rfl
    rw [countedSum?_of_fits fits] at run
    cases run
    rw [reducedSum, if_pos fits]
    exact toInt_add_of_fits fits
  | succ reductions ih =>
    intro index sum run
    have overflows : ¬ FitsInt64 (index.toInt + offset.toInt) := fun fits =>
      absurd ((Counted.of_countedSum? run).reductions_eq_zero_iff.mpr fits) (Nat.succ_ne_zero _)
    obtain ⟨room, more, same, run⟩ := (countedSum?_of_overflow overflows).mp run
    cases same
    rw [← toInt_sub_of_fits room.2] at run
    rw [reducedSum, if_neg overflows, dif_pos room]
    exact ih run

/-! ## Buckets in range -/

section

variable {index offset m : Int} (low : 0 ≤ index) (high : index < m) (top : FitsInt64 m)
  (fits : FitsInt64 offset)
include low high top fits

/-- A sum that leaves the range is too large, and then the lowered bucket makes up for it. -/
theorem fits_of_overflow (overflows : ¬ FitsInt64 (index + offset)) :
    FitsInt64 (index - m) ∧ FitsInt64 (index - m + offset) := by
  unfold FitsInt64 at *
  omega

theorem exists_countedSum? :
    ∃ reductions ≤ 1, ∃ sum, countedSum? index offset m = some (reductions, sum) := by
  by_cases inRange : FitsInt64 (index + offset)
  · exact ⟨0, Nat.zero_le 1, _, countedSum?_of_fits inRange⟩
  · obtain ⟨room, enough⟩ := fits_of_overflow low high top fits inRange
    exact ⟨1, Nat.le_refl 1, _, (countedSum?_of_overflow inRange).mpr
      ⟨⟨Int.lt_of_le_of_lt low high, room⟩, 0, rfl, countedSum?_of_fits enough⟩⟩

end

/-- **One reduction is enough.** For a bucket in range of a positive bucket count and for every offset, the
least and the greatest included, the loop ends after one reduction at most. It makes one exactly if the sum
is out of range; then lowering stays in range, and so does the sum with the lowered bucket. It ends with the
sum of the placement rule. This is the true sum modulo the bucket count, and the true sum itself where that
is in range. So its non-negative remainder is the remainder of the true sum. -/
theorem one_reduction_is_enough {index offset m : Int64} (low : 0 ≤ index) (high : index < m) :
    ∃ reductions ≤ 1,
      countedSum? index.toInt offset.toInt m.toInt =
        some (reductions, (reducedSum index offset m).toInt) ∧
      (reductions = 0 ↔ FitsInt64 (index.toInt + offset.toInt)) ∧
      (¬ FitsInt64 (index.toInt + offset.toInt) →
        FitsInt64 (index.toInt - m.toInt) ∧ FitsInt64 (index.toInt - m.toInt + offset.toInt)) ∧
      (reducedSum index offset m).toInt = index.toInt + offset.toInt - reductions * m.toInt ∧
      (reducedSum index offset m).toInt ≡ index.toInt + offset.toInt [ZMOD m.toInt] ∧
      (FitsInt64 (index.toInt + offset.toInt) →
        (reducedSum index offset m).toInt = index.toInt + offset.toInt) ∧
      (nonNegativeRemainder (reducedSum index offset m) m).toInt =
        (index.toInt + offset.toInt) % m.toInt := by
  have low : 0 ≤ index.toInt := Int64.le_iff_toInt_le.mp low
  have high : index.toInt < m.toInt := Int64.lt_iff_toInt_lt.mp high
  have positive : 0 < m.toInt := Int.lt_of_le_of_lt low high
  obtain ⟨reductions, most, sum, run⟩ :=
    exists_countedSum? low high (fits_toInt m) (fits_toInt offset)
  obtain rfl := toInt_reducedSum_of_countedSum? run
  have counted := Counted.of_countedSum? run
  refine ⟨reductions, most, run, counted.reductions_eq_zero_iff, ?_, counted.sum_eq, counted.modEq,
    ?_, ?_⟩
  · exact fits_of_overflow low high (fits_toInt m) (fits_toInt offset)
  · intro inRange
    rw [counted.sum_eq, counted.reductions_eq_zero_iff.mpr inRange]
    simp
  · rw [toInt_nonNegativeRemainder positive]
    exact counted.modEq

/-- From the last bucket of the largest even count the greatest offset leads out of range, and one reduction
brings the sum back. The least offset leads to a sum below zero, which is in range. -/
theorem greatest_and_least_offset :
    countedSum? 0x7ffffffffffffffd 0x7fffffffffffffff 0x7ffffffffffffffe =
      some (1, 0x7ffffffffffffffe) ∧
    countedSum? 3 (-0x8000000000000000) 10 = some (0, -0x7ffffffffffffffd) := by
  obtain ⟨made, most, above, none_iff, -, sum, -⟩ :=
    @one_reduction_is_enough 0x7ffffffffffffffd 0x7fffffffffffffff 0x7ffffffffffffffe
      (by decide) (by decide)
  obtain ⟨left, -, below, none_iff', -, -, -, inRange, -⟩ :=
    @one_reduction_is_enough 3 Int64.minValue 10 (by decide) (by decide)
  have overflows : made ≠ 0 := fun none => absurd (none_iff.mp none) (by decide)
  obtain rfl : made = 1 := by omega
  obtain rfl : left = 0 := none_iff'.mpr (by decide)
  rw [sum] at above
  rw [inRange (by decide)] at below
  exact ⟨above, below⟩

end Cuckoo.Placement

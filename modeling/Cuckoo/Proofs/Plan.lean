import Cuckoo.Plan
import Cuckoo.Proofs.Placement.Rounding

/-!
# Planned bucket counts

How many buckets are planned is computed from a quotient of floating-point numbers. The quotient may be
off, infinite or no number at all. **What is planned makes sense whatever it is**, since it is cut to a
word first: the count is even and between 2 and 2^63, and no sum on the way overflows.

A placement rule then raises the count to the least one for which it works, or there is none.
-/

set_option autoImplicit false

namespace Cuckoo

open Runs Placement

namespace Plan

/-- A quotient rounded up: rounded down, and one more for a rest. -/
def ceilDiv? (a b : Nat) : Option Nat := if a % b = 0 then some (a / b) else word? (a / b + 1)

/-- The number of buckets in bounded numbers. -/
def bucketsForSlots? (slots : Nat) (size : BucketSize) : Option Nat := do
  let full ← ceilDiv? slots size.slots
  let buckets := max 1 full
  word? (buckets + buckets % 2)

/-- A number of buckets that can be planned. -/
structure Sensible (buckets : Nat) : Prop where
  even : buckets % 2 = 0
  two_le : 2 ≤ buckets
  le : buckets ≤ 2 ^ 63

section

variable {slots : Nat} (size : BucketSize)

theorem sensible_bucketsForSlots (word : slots < 2 ^ 64) : Sensible (bucketsForSlots slots size) := by
  unfold bucketsForSlots
  cases size <;> dsimp only [BucketSize.slots] <;> constructor <;> omega

theorem ceilDiv?_eq (word : slots < 2 ^ 64) :
    ceilDiv? slots size.slots = some ((slots + size.slots - 1) / size.slots) := by
  unfold ceilDiv?
  by_cases rest : slots % size.slots = 0
  · rw [if_pos rest]
    refine congrArg some ?_
    cases size <;> dsimp only [BucketSize.slots] at rest ⊢ <;> omega
  · have up : slots / size.slots + 1 = (slots + size.slots - 1) / size.slots := by
      cases size <;> dsimp only [BucketSize.slots] at rest ⊢ <;> omega
    have fits : (slots + size.slots - 1) / size.slots < 2 ^ 64 := by
      cases size <;> dsimp only [BucketSize.slots] <;> omega
    rw [if_neg rest, up]
    exact word?_eq fits

theorem bucketsForSlots?_eq (word : slots < 2 ^ 64) :
    bucketsForSlots? slots size = some (bucketsForSlots slots size) := by
  have fits : bucketsForSlots slots size < 2 ^ 64 :=
    Nat.lt_of_le_of_lt (sensible_bucketsForSlots size word).le (by decide)
  unfold bucketsForSlots?
  rw [ceilDiv?_eq size word]
  exact word?_eq fits

end

/-- The number that is planned is a word. -/
theorem toNat_buckets (insertions : UInt64) (size : BucketSize) :
    (buckets insertions size).toNat =
      bucketsForSlots (insertions.toFloat / size.loadFactor).ceil.toUInt64.toNat size := by
  have sensible := sensible_bucketsForSlots size
    (insertions.toFloat / size.loadFactor).ceil.toUInt64.toNat_lt
  exact UInt64.toNat_ofNat_of_lt' (Nat.lt_of_le_of_lt sensible.le (by decide))

theorem sensible_buckets (insertions : UInt64) (size : BucketSize) :
    Sensible (buckets insertions size).toNat := by
  rw [toNat_buckets]
  exact sensible_bucketsForSlots size (UInt64.toNat_lt _)

/-- **Rounding finds the least bucket count that a rule works for**, and objects to a count exactly if
there is none from there on, in either case without an overflow. So it is monotone, rounding twice is
rounding once, and the counts that stay as they are are those for which the rule works.

Whatever a quotient comes to, the number of buckets for it is even and between 2 and 2^63. The number that
is planned is the one for the quotient of the wanted insertions and the load factor; and a planned count is
one that the rule works for and not below that number, or it is objected to. -/
theorem rounds_to_the_least_count (s : Scheme) :
    (∀ m : UInt64,
      ((∃ r, s.placement.round m = .ok r) ↔ ∃ r, m ≤ r ∧ s.placement.Accepts r) ∧
      (∀ r, s.placement.round m = .ok r ↔ s.placement.LeastFrom m r) ∧
      (∀ f, s.placement.round m = .error f → f.report.kind = .invalidArgument) ∧
      s.round? m = some (s.placement.round m)) ∧
    (∀ m r, s.placement.round m = .ok r → s.placement.round r = .ok r) ∧
    (∀ m m' r', m ≤ m' → s.placement.round m' = .ok r' →
      ∃ r, s.placement.round m = .ok r ∧ r ≤ r') ∧
    (∀ m, s.placement.round m = .ok m ↔ s.placement.check m = .ok ()) ∧
    (∀ (quotient : Float) (size : BucketSize),
      Sensible (bucketsForSlots quotient.ceil.toUInt64.toNat size) ∧
      bucketsForSlots? quotient.ceil.toUInt64.toNat size =
        some (bucketsForSlots quotient.ceil.toUInt64.toNat size)) ∧
    ∀ (insertions : UInt64) (size : BucketSize),
      (buckets insertions size).toNat =
        bucketsForSlots (insertions.toFloat / size.loadFactor).ceil.toUInt64.toNat size ∧
      Sensible (buckets insertions size).toNat ∧
      (∀ r, bucketsFor s.placement insertions size = .ok r →
        s.placement.check r = .ok () ∧ buckets insertions size ≤ r) ∧
      ∀ f, bucketsFor s.placement insertions size = .error f →
        f.report.kind = .invalidArgument := by
  have rounds := s.placement_roundsUp
  refine ⟨?_, ?_, ?_, ?_, ?_, ?_⟩
  · intro m
    exact ⟨rounds.round_isOk_iff, fun r => rounds.round_eq_ok_iff,
      fun f run => (rounds.of_error run).1, s.round?_eq m⟩
  · exact fun m r run => rounds.round_round run
  · exact fun m m' r' le run => rounds.round_mono le run
  · exact fun m => rounds.round_self_iff
  · intro quotient size
    have word := quotient.ceil.toUInt64.toNat_lt
    exact ⟨sensible_bucketsForSlots size word, bucketsForSlots?_eq size word⟩
  · intro insertions size
    refine ⟨toNat_buckets insertions size, sensible_buckets insertions size, ?_,
      fun f run => (rounds.of_error run).1⟩
    intro r run
    exact ⟨(rounds.of_ok run).accepts, (rounds.of_ok run).le⟩

/-- The largest counts that the rules work for stay, and the next ones cannot be raised; nor can the
largest word, from which a sum would overflow. -/
theorem rounded_at_the_limits :
    (Placement.xor.LeastFrom 3 4 ∧ Placement.xor.round 4 = .ok 4 ∧
      (∃ r, Placement.xor.round 3 = .ok r ∧ r ≤ 0x4000000000000000) ∧
      (¬ ∃ r, 0x4000000000000001 ≤ r ∧ Placement.xor.Accepts r) ∧
      roundByPower? 0xffffffffffffffff = some (.error (.noPowerOfTwo 0xffffffffffffffff))) ∧
    Placement.parityOffset.LeastFrom 7 8 ∧
      Placement.parityOffset.round 0x7ffffffffffffffe = .ok 0x7ffffffffffffffe ∧
      (¬ ∃ r, 0x7fffffffffffffff ≤ r ∧ Placement.parityOffset.Accepts r) ∧
      (Failure.noEvenCount 0xffffffffffffffff).report.kind = .invalidArgument ∧
      bucketsForSlots 0xffffffffffffffff .two = 2 ^ 63 := by
  obtain ⟨byPower, again, mono, -, -, -⟩ := rounds_to_the_least_count .xor
  obtain ⟨byParity, -, -, self, -, -⟩ := rounds_to_the_least_count .parityOffset
  have three : Placement.xor.round 3 = .ok 4 := rfl
  have largest : Placement.xor.round 0x4000000000000000 = .ok 0x4000000000000000 := rfl
  refine ⟨⟨((byPower 3).2.1 4).mp three, again 3 4 three, ?_, ?_, ?_⟩, ?_, ?_, ?_, ?_, rfl⟩
  · exact mono 3 0x4000000000000000 _ (by decide) largest
  · intro above
    obtain ⟨r, run⟩ := (byPower 0x4000000000000001).1.mpr above
    cases run
  · exact (byPower 0xffffffffffffffff).2.2.2
  · exact ((byParity 7).2.1 8).mp rfl
  · exact (self 0x7ffffffffffffffe).mpr rfl
  · intro above
    obtain ⟨r, run⟩ := (byParity 0x7fffffffffffffff).1.mpr above
    cases run
  · exact (byParity 0xffffffffffffffff).2.2.1 _ rfl

end Plan

end Cuckoo

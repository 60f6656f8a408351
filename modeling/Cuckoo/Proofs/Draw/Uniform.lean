import Cuckoo.Draw.Uniform
import Cuckoo.Proofs.Runs

/-!
# A chosen number is below its bound

The product of a random fraction and the bound is below the bound. The carry from the second word
might reach it, but **where the product is in the last unit below the bound, no carry is asked for**.
-/

set_option autoImplicit false

namespace Cuckoo.Draw

open Runs

theorem drawFor_lt (n : Nat) (s : Keystream) : (drawFor n s).1 < wordRange n := by
  unfold drawFor wordRange
  split
  · exact UInt32.toNat_lt _
  · exact UInt64.toNat_lt _

theorem mul_div_lt {word n range : Nat} (pos : 0 < n) (h : word < range) :
    word * n / range < n := by
  rw [Nat.div_lt_iff_lt_mul (by omega), Nat.mul_comm n]
  exact Nat.mul_lt_mul_of_pos_right h pos

/-- A fraction that is large enough to matter leaves room for a carry. -/
theorem mul_div_add_one_lt {word n range : Nat} (h : word < range)
    (matters : range - n < word * n % range) : word * n / range + 1 < n := by
  have split := Nat.div_add_mod (word * n) range
  have top : word * n + n ≤ range * n := by
    rw [← Nat.succ_mul]
    exact Nat.mul_le_mul_right _ h
  rcases Nat.lt_or_ge (word * n / range + 1) n with below | reached
  · exact below
  · have last : range * (n - 1) ≤ range * (word * n / range) :=
      Nat.mul_le_mul_left _ (Nat.sub_le_iff_le_add.mpr reached)
    rw [Nat.mul_sub, Nat.mul_one] at last
    omega

/-- **A choice from a range that is not empty is made, and it lies in the range.** -/
theorem exists_below {n : Nat} (pos : 0 < n) (s : Keystream) :
    ∃ chosen s', below n s = .ok (chosen, s') ∧ chosen < n := by
  have word := drawFor_lt n s
  unfold below
  rw [if_neg (by omega)]
  dsimp only
  split
  next matters =>
    have room := mul_div_add_one_lt word matters
    refine ⟨_, _, rfl, ?_⟩
    split
    · exact room
    · exact Nat.lt_of_succ_lt room
  next => exact ⟨_, _, rfl, mul_div_lt pos word⟩

end Cuckoo.Draw

import Cuckoo.Proofs.Draw.Uniform

/-!
# Choosing a number, in bounded numbers

A choice multiplies a random word with the bound, in numbers of twice the size of a word, and may add a
carry to the upper half of the product. Here both are checked: a product that is too long for the double
word and a sum that is too long for a word leave the run stuck.

**For every bound that is positive and a 64-bit number the run is not stuck**: the sum is the number chosen,
and this is below the bound, carry included.
-/

set_option autoImplicit false

namespace Cuckoo.Draw

open Runs

/-- A number, if it is in a range. -/
def inRange? (range x : Nat) : Option Nat := if x < range then some x else none

/-- Chooses a number below `n`. -/
def below? (n : Nat) (s : Keystream) : Option (Nat × Keystream) := do
  if n = 0 then none
  let range := wordRange n
  let (first, s) := drawFor n s
  let product ← inRange? (range * range) (first * n)
  let fraction := product % range
  if range - n < fraction then
    let (second, s) := drawFor n s
    let refined ← inRange? (range * range) (second * n)
    let carry := if range ≤ fraction + refined / range then 1 else 0
    let chosen ← inRange? range (product / range + carry)
    pure (chosen, s)
  else pure (product / range, s)

theorem inRange?_eq {range x : Nat} (lt : x < range) : inRange? range x = some x := if_pos lt

theorem lt_wordRange {n : Nat} (small : n < UInt64.size) : n < wordRange n := by
  unfold wordRange
  split
  next h => exact h
  next => exact small

theorem exists_below? {n : Nat} (pos : 0 < n) (small : n < UInt64.size) (s : Keystream) :
    ∃ chosen s', below n s = .ok (chosen, s') ∧ below? n s = some (chosen, s') ∧ chosen < n := by
  have bound := lt_wordRange small
  have product : ∀ {word s s'}, drawFor n s = (word, s') →
      inRange? (wordRange n * wordRange n) (word * n) = some (word * n) := by
    intro word s s' drawn
    have lt := drawFor_lt n s
    rw [drawn] at lt
    exact inRange?_eq (Nat.mul_lt_mul'' lt bound)
  obtain ⟨chosen, s', run, lt⟩ := exists_below pos s
  refine ⟨chosen, s', run, ?_, lt⟩
  unfold below at run
  unfold below?
  rw [if_neg (Nat.ne_of_gt pos)] at run ⊢
  rcases drawn : drawFor n s with ⟨first, s₁⟩
  rw [drawn] at run
  dsimp only at run ⊢
  refine bind_eq_some (product drawn) ?_
  split at run
  next matters =>
    rw [if_pos matters]
    rcases drawn' : drawFor n s₁ with ⟨second, s₂⟩
    rw [drawn'] at run
    cases run
    refine bind_eq_some (product drawn') ?_
    exact bind_eq_some (inRange?_eq (Nat.lt_trans lt bound)) rfl
  next matters =>
    rw [if_neg matters]
    cases run
    rfl

end Cuckoo.Draw

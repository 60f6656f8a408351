import Cuckoo.BitString.Lemmas
import Mathlib.Algebra.Group.Nat.Defs

/-!
# Spans that are overwritten and read back

`bit_poke` says what an overwrite does to every single bit. This file lifts it to spans: an
overwritten span holds the low bits of the value, **a span apart from it holds what it held before**,
and overwriting a span with what it used to hold restores the whole string. The last one is what lets
a chain of overwrites be undone, bits to spare included.

Two strings are compared bit by bit (`ext_bit`); everything below goes through it or through its twin
for a single word.
-/

set_option autoImplicit false

namespace Cuckoo.BitString

/-! ## Equality, bit by bit -/

theorem word_ext {a b : UInt64} (h : ∀ j, a.toNat.testBit j = b.toNat.testBit j) : a = b :=
  UInt64.toNat.inj (Nat.eq_of_testBit_eq h)

theorem ext_bit {a b : Array UInt64} (size : a.size = b.size) (h : ∀ j, bit a j = bit b j) :
    a = b := by
  apply Array.ext size
  intro i ha hb
  apply word_ext
  intro k
  by_cases hk : k < 64
  · have := h (64 * i + k)
    simp only [bit, show (64 * i + k) / 64 = i by omega, show (64 * i + k) % 64 = k by omega] at this
    simpa [Array.getD, ha, hb] using this
  · rw [testBit_eq_false_of_ge (by omega), testBit_eq_false_of_ge (by omega)]

theorem bit_replicate (size j : Nat) : bit (Array.replicate size 0) j = false := by
  unfold bit
  rw [Array.getD_eq_getD_getElem?, Array.getElem?_replicate]
  split <;> simp

/-! ## Values that fit a span -/

theorem testBit_and_lowMask {length : Nat} (pos : 1 ≤ length) (le : length ≤ 64) (value : UInt64)
    (j : Nat) : (value &&& lowMask length).toNat.testBit j =
      (decide (j < length) && value.toNat.testBit j) := by
  rw [UInt64.toNat_and, Nat.testBit_and, testBit_lowMask pos le, Bool.and_comm]

theorem toNat_and_lowMask {length : Nat} (pos : 1 ≤ length) (le : length ≤ 64) (value : UInt64) :
    (value &&& lowMask length).toNat = value.toNat % 2 ^ length :=
  Nat.eq_of_testBit_eq fun j => by
    rw [testBit_and_lowMask pos le, Nat.testBit_mod_two_pow]

theorem and_lowMask_eq_self_iff {length : Nat} (pos : 1 ≤ length) (le : length ≤ 64)
    (value : UInt64) : value &&& lowMask length = value ↔ value.toNat < 2 ^ length := by
  constructor
  · intro h
    apply Nat.lt_pow_two_of_testBit
    intro j hj
    rw [← h, testBit_and_lowMask pos le, decide_eq_false (by omega), Bool.false_and]
  · intro h
    apply word_ext
    intro j
    rw [testBit_and_lowMask pos le]
    by_cases hj : j < length
    · simp [hj]
    · have high : value.toNat.testBit j = false :=
        Nat.testBit_lt_two_pow (Nat.lt_of_lt_of_le h (Nat.pow_le_pow_right (by decide) (by omega)))
      simp [high]

theorem and_not_lowMask_eq_zero_iff {length : Nat} (pos : 1 ≤ length) (le : length ≤ 64)
    (value : UInt64) : value &&& ~~~(lowMask length) = 0 ↔ value &&& lowMask length = value := by
  have above : ∀ j, (value &&& ~~~(lowMask length)).toNat.testBit j =
      (value.toNat.testBit j && decide (length ≤ j)) := by
    intro j
    rw [UInt64.toNat_and, Nat.testBit_and]
    by_cases hj : j < 64
    · rw [testBit_not hj, testBit_lowMask pos le, ← decide_not]
      simp only [Nat.not_lt]
    · rw [@testBit_eq_false_of_ge value j (by omega), Bool.false_and, Bool.false_and]
  constructor
  · intro h
    apply word_ext
    intro j
    have hj := above j
    rw [h, show (0 : UInt64).toNat = 0 from rfl, Nat.zero_testBit] at hj
    rw [testBit_and_lowMask pos le]
    by_cases low : j < length
    · simp [low]
    · have off : value.toNat.testBit j = false := by
        simpa [show length ≤ j by omega] using hj
      simp [off]
  · intro h
    apply word_ext
    intro j
    rw [above, ← h, testBit_and_lowMask pos le, show (0 : UInt64).toNat = 0 from rfl,
      Nat.zero_testBit]
    by_cases low : j < length
    · simp [show ¬ length ≤ j by omega]
    · simp [low]

theorem peek_and_lowMask (words : Array UInt64) (offset : Nat) {length : Nat} (pos : 1 ≤ length)
    (le : length ≤ 64) : peek words offset length &&& lowMask length = peek words offset length := by
  apply word_ext
  intro j
  rw [testBit_and_lowMask pos le, testBit_peek words offset pos le, ← Bool.and_assoc, Bool.and_self]

/-! ## Overwriting and reading -/

section

variable {words : Array UInt64} {offset length : Nat}

theorem peek_poke (pos : 1 ≤ length) (le : length ≤ 64)
    (inside : offset + length ≤ 64 * words.size) (value : UInt64) :
    peek (poke words offset length value) offset length = value &&& lowMask length := by
  apply word_ext
  intro j
  rw [testBit_peek _ _ pos le, testBit_and_lowMask pos le, bit_poke words pos le inside]
  by_cases hj : j < length
  · rw [if_pos (by omega), show offset + j - offset = j by omega]
  · simp [hj]

/-- A span that shares no bit with the overwritten one holds what it held before. -/
theorem peek_poke_of_disjoint (pos : 1 ≤ length) (le : length ≤ 64)
    (inside : offset + length ≤ 64 * words.size) (value : UInt64) {offset' length' : Nat}
    (pos' : 1 ≤ length') (le' : length' ≤ 64)
    (disjoint : offset' + length' ≤ offset ∨ offset + length ≤ offset') :
    peek (poke words offset length value) offset' length' = peek words offset' length' := by
  apply word_ext
  intro j
  rw [testBit_peek _ _ pos' le', testBit_peek _ _ pos' le', bit_poke words pos le inside]
  by_cases hj : j < length'
  · rw [if_neg (by omega)]
  · simp [hj]

theorem poke_poke (pos : 1 ≤ length) (le : length ≤ 64)
    (inside : offset + length ≤ 64 * words.size) (value other : UInt64) :
    poke (poke words offset length value) offset length other = poke words offset length other := by
  have inside' : offset + length ≤ 64 * (poke words offset length value).size := by
    rw [size_poke]
    exact inside
  apply ext_bit (by simp)
  intro j
  rw [bit_poke _ pos le inside', bit_poke words pos le inside, bit_poke words pos le inside]
  split <;> rfl

theorem poke_peek (pos : 1 ≤ length) (le : length ≤ 64)
    (inside : offset + length ≤ 64 * words.size) :
    poke words offset length (peek words offset length) = words := by
  apply ext_bit (by simp)
  intro j
  rw [bit_poke words pos le inside]
  split
  next within =>
    rw [testBit_peek _ _ pos le, decide_eq_true (by omega), Bool.true_and,
      show offset + (j - offset) = j by omega]
  next => rfl

/-- **An overwrite is undone by writing back what the span held.** -/
theorem poke_poke_peek (pos : 1 ≤ length) (le : length ≤ 64)
    (inside : offset + length ≤ 64 * words.size) (value : UInt64) :
    poke (poke words offset length value) offset length (peek words offset length) = words := by
  rw [poke_poke pos le inside, poke_peek pos le inside]

end

end Cuckoo.BitString

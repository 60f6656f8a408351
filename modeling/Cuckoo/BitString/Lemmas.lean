import Cuckoo.BitString.Basic

/-!
# Spans of the flat bit string, bit by bit

`testBit_peek` says what a read sees and `bit_poke` what an overwrite changes, both through the view
`bit`. **Everything that a table promises about its cells comes down to these two.** The lemmas before
them say which bits the word operations keep, clear or move.
-/

set_option autoImplicit false

namespace Cuckoo.BitString

/-! ## Bits of words -/

theorem testBit_eq_false_of_ge {word : UInt64} {j : Nat} (h : 64 ≤ j) :
    word.toNat.testBit j = false :=
  Nat.testBit_lt_two_pow (Nat.lt_of_lt_of_le word.toNat_lt (Nat.pow_le_pow_right (by decide) h))

theorem testBit_shiftRight {word : UInt64} {s j : Nat} (hs : s < 64) :
    (word >>> s.toUInt64).toNat.testBit j = word.toNat.testBit (s + j) := by
  have amount : s.toUInt64.toNat % 64 = s := by simp [Nat.toUInt64]; omega
  rw [UInt64.toNat_shiftRight, amount, Nat.testBit_shiftRight]

theorem testBit_shiftLeft {word : UInt64} {s j : Nat} (hs : s < 64) :
    (word <<< s.toUInt64).toNat.testBit j =
      (decide (s ≤ j ∧ j < 64) && word.toNat.testBit (j - s)) := by
  have amount : s.toUInt64.toNat % 64 = s := by simp [Nat.toUInt64]; omega
  rw [UInt64.toNat_shiftLeft, amount, Nat.testBit_mod_two_pow, Nat.testBit_shiftLeft]
  by_cases low : s ≤ j <;> by_cases high : j < 64 <;> simp [low, high]

theorem testBit_not {word : UInt64} {j : Nat} (hj : j < 64) :
    (~~~word).toNat.testBit j = !word.toNat.testBit j := by
  rw [UInt64.toNat_not, show UInt64.size = 2 ^ 64 from rfl,
    show 2 ^ 64 - 1 - word.toNat = 2 ^ 64 - (word.toNat + 1) by omega,
    Nat.testBit_two_pow_sub_succ word.toNat_lt]
  simp [hj]

/-- A low mask has ones exactly below its length. -/
theorem testBit_lowMask {length j : Nat} (pos : 1 ≤ length) (le : length ≤ 64) :
    (lowMask length).toNat.testBit j = decide (j < length) := by
  unfold lowMask
  rw [testBit_shiftRight (by omega), show (0xffffffffffffffff : UInt64).toNat = 2 ^ 64 - 1 from rfl,
    Nat.testBit_two_pow_sub_one]
  exact decide_eq_decide.mpr (by omega)

/-! ## Spans -/

/-- A span is refused exactly when its length is wrong or its end lies past the last word. -/
theorem checkSpan_eq_ok_iff {words : Array UInt64} {offset length : Nat} :
    checkSpan words offset length = .ok () ↔
      1 ≤ length ∧ length ≤ 64 ∧ offset + length ≤ 64 * words.size := by
  unfold checkSpan
  split
  next wrong =>
    constructor
    · intro h; cases h
    · intro h; omega
  next right =>
    split
    next outside =>
      constructor
      · intro h; cases h
      · intro h; omega
    next inside =>
      constructor
      · intro _; omega
      · intro _; rfl

theorem testBit_spanValue (words : Array UInt64) (offset length j : Nat) :
    (spanValue words offset length).testBit j = (decide (j < length) && bit words (offset + j)) := by
  induction length generalizing offset j with
  | zero => simp [spanValue]
  | succ length ih =>
    cases j with
    | zero =>
      rw [spanValue, Nat.testBit_zero]
      cases bit words offset <;> simp
    | succ j =>
      have tail : ((bit words offset).toNat + 2 * spanValue words (offset + 1) length) / 2 =
          spanValue words (offset + 1) length := by
        cases bit words offset <;> simp only [Bool.toNat_true, Bool.toNat_false] <;> omega
      rw [spanValue, Nat.testBit_succ, tail, ih, show offset + 1 + j = offset + (j + 1) by omega]
      simp

/-- Reading a span sees its bits and, above them, zeros. -/
theorem testBit_peek (words : Array UInt64) (offset : Nat) {length : Nat} (pos : 1 ≤ length)
    (le : length ≤ 64) (j : Nat) :
    (peek words offset length).toNat.testBit j =
      (decide (j < length) && bit words (offset + j)) := by
  simp only [peek, UInt64.toNat_and, UInt64.toNat_or, Nat.testBit_and, Nat.testBit_or,
    testBit_lowMask pos le, bit]
  by_cases hj : j < length
  · simp only [hj, decide_true, Bool.and_true, Bool.true_and]
    rw [testBit_shiftRight (by omega)]
    by_cases same : offset % 64 + j < 64
    · -- the bit lies in the first word, and the second word is shifted past it
      rw [show (offset + j) / 64 = offset / 64 by omega,
        show (offset + j) % 64 = offset % 64 + j by omega]
      split
      · rw [testBit_shiftLeft (by omega)]; simp; omega
      · simp
    · -- the bit lies in the second word, and the first word has no bits left there
      rw [testBit_eq_false_of_ge (by omega), if_pos (by omega), testBit_shiftLeft (by omega),
        show (offset + j) / 64 = offset / 64 + 1 by omega,
        show (offset + j) % 64 = j - (64 - offset % 64) by omega]
      simp; omega
  · simp [hj]

theorem toNat_peek (words : Array UInt64) (offset : Nat) {length : Nat} (pos : 1 ≤ length)
    (le : length ≤ 64) : (peek words offset length).toNat = spanValue words offset length :=
  Nat.eq_of_testBit_eq fun j => by
    rw [testBit_peek words offset pos le, testBit_spanValue]

private theorem getD_modify_word (words : Array UInt64) (i k : Nat) (f : UInt64 → UInt64) :
    (words.modify i f).getD k 0 =
      if i = k ∧ k < words.size then f (words.getD k 0) else words.getD k 0 := by
  simp only [Array.getD_eq_getD_getElem?, Array.getElem?_modify]
  by_cases h : i = k
  · by_cases hk : k < words.size
    · simp [h, hk]
    · simp [h, hk]
  · simp [h]

/-- Overwriting a span puts the low bits of the value there and keeps every other bit. -/
theorem bit_poke (words : Array UInt64) {offset length : Nat} (pos : 1 ≤ length)
    (le : length ≤ 64) (inside : offset + length ≤ 64 * words.size) (value : UInt64) (j : Nat) :
    bit (poke words offset length value) j =
      if offset ≤ j ∧ j < offset + length then value.toNat.testBit (j - offset)
      else bit words j := by
  have hmod : j % 64 < 64 := Nat.mod_lt _ (by decide)
  -- what happens to a bit of the first word of the span
  have first : ∀ word : UInt64,
      ((word &&& ~~~(lowMask length <<< (offset % 64).toUInt64)) |||
        ((value &&& lowMask length) <<< (offset % 64).toUInt64)).toNat.testBit (j % 64) =
      if offset % 64 ≤ j % 64 ∧ j % 64 < offset % 64 + length then
        value.toNat.testBit (j % 64 - offset % 64)
      else word.toNat.testBit (j % 64) := by
    intro word
    simp only [UInt64.toNat_and, UInt64.toNat_or, Nat.testBit_and, Nat.testBit_or,
      testBit_not hmod, testBit_shiftLeft (show offset % 64 < 64 by omega), testBit_lowMask pos le,
      hmod, and_true]
    by_cases low : offset % 64 ≤ j % 64
    · by_cases high : j % 64 < offset % 64 + length
      · simp [low, high, show j % 64 - offset % 64 < length by omega]
      · simp [low, high, show ¬ j % 64 - offset % 64 < length by omega]
    · simp [low]
  -- and to a bit of the second word, if the span goes on there
  have second : 64 < offset % 64 + length → ∀ word : UInt64,
      ((word &&& ~~~(lowMask length >>> (64 - offset % 64).toUInt64)) |||
        ((value &&& lowMask length) >>> (64 - offset % 64).toUInt64)).toNat.testBit (j % 64) =
      if j % 64 + 64 < offset % 64 + length then value.toNat.testBit (64 - offset % 64 + j % 64)
      else word.toNat.testBit (j % 64) := by
    intro straddles word
    simp only [UInt64.toNat_and, UInt64.toNat_or, Nat.testBit_and, Nat.testBit_or,
      testBit_not hmod, testBit_shiftRight (show 64 - offset % 64 < 64 by omega),
      testBit_lowMask pos le]
    by_cases high : j % 64 + 64 < offset % 64 + length
    · simp [high, show 64 - offset % 64 + j % 64 < length by omega]
    · simp [high, show ¬ 64 - offset % 64 + j % 64 < length by omega]
  have inFirst : offset / 64 = j / 64 →
      ((offset % 64 ≤ j % 64 ∧ j % 64 < offset % 64 + length) ↔
        (offset ≤ j ∧ j < offset + length)) := by omega
  have inSecond : offset / 64 + 1 = j / 64 →
      (j % 64 + 64 < offset % 64 + length ↔ (offset ≤ j ∧ j < offset + length)) := by omega
  simp only [poke, bit]
  split
  next straddles =>
    rw [getD_modify_word, getD_modify_word]
    by_cases hj : offset / 64 = j / 64
    · rw [if_neg (by omega), if_pos ⟨hj, by omega⟩, first]
      simp only [inFirst hj]
      split
      · rw [show j % 64 - offset % 64 = j - offset by omega]
      · rfl
    · by_cases hj' : offset / 64 + 1 = j / 64
      · rw [if_pos ⟨hj', by simp only [Array.size_modify]; omega⟩, if_neg (by omega),
          second straddles]
        simp only [inSecond hj']
        split
        · rw [show 64 - offset % 64 + j % 64 = j - offset by omega]
        · rfl
      · rw [if_neg (by omega), if_neg (by omega), if_neg (by omega)]
  next contained =>
    rw [getD_modify_word]
    by_cases hj : offset / 64 = j / 64
    · rw [if_pos ⟨hj, by omega⟩, first]
      simp only [inFirst hj]
      split
      · rw [show j % 64 - offset % 64 = j - offset by omega]
      · rfl
    · rw [if_neg (by omega), if_neg (by omega)]

end Cuckoo.BitString

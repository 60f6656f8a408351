import Cuckoo.BitString.Lemmas
import Cuckoo.Proofs.Runs

/-!
# Spans, word by word and with every step checked

A span is read and overwritten with a few operations on words: it takes a word out of the array, shifts
it, and masks it. Here each of these is checked. A word that is not in the array, a shift by 64 bits or
more and a difference below zero leave the run stuck.

The span was checked once, before any word was touched. **That check is exact** (`read?_eq`, `write?_eq`):
it refuses the spans on which a later step would be stuck, and no others.
-/

set_option autoImplicit false

namespace Cuckoo.BitString

open Runs

def shiftRight? (word : UInt64) (amount : Nat) : Option UInt64 :=
  if amount < 64 then some (word >>> amount.toUInt64) else none

def shiftLeft? (word : UInt64) (amount : Nat) : Option UInt64 :=
  if amount < 64 then some (word <<< amount.toUInt64) else none

def lowMask? (length : Nat) : Option UInt64 := do
  let amount ← sub? 64 length
  shiftRight? 0xffffffffffffffff amount

def read? (words : Array UInt64) (offset length : Nat) : Option UInt64 := do
  if length < 1 ∨ 64 < length then none
  let shift := offset % 64
  let first ← words[offset / 64]?
  let low ← shiftRight? first shift
  let mask ← lowMask? length
  if 64 < shift + length then
    let second ← words[offset / 64 + 1]?
    let high ← shiftLeft? second (← sub? 64 shift)
    pure ((low ||| high) &&& mask)
  else pure (low &&& mask)

/-- Replaces the bits of a word under a mask by those of a value. -/
def overwrite? (words : Array UInt64) (i : Nat) (mask value : UInt64) : Option (Array UInt64) :=
  if i < words.size then some (words.modify i fun word => (word &&& ~~~mask) ||| value) else none

def poke? (words : Array UInt64) (offset length : Nat) (value : UInt64) : Option (Array UInt64) := do
  let mask ← lowMask? length
  let shift := offset % 64
  let words ← overwrite? words (offset / 64) (← shiftLeft? mask shift)
    (← shiftLeft? (value &&& mask) shift)
  if 64 < shift + length then
    let spill ← sub? 64 shift
    overwrite? words (offset / 64 + 1) (← shiftRight? mask spill) (← shiftRight? (value &&& mask) spill)
  else pure words

def write? (value : UInt64) (words : Array UInt64) (offset length : Nat) :
    Option (UInt64 × Array UInt64) := do
  let old ← read? words offset length
  let words ← poke? words offset length value
  pure (old, words)

/-! ## Single steps -/

theorem shiftRight?_eq (word : UInt64) {amount : Nat} (lt : amount < 64) :
    shiftRight? word amount = some (word >>> amount.toUInt64) := if_pos lt

theorem shiftLeft?_eq (word : UInt64) {amount : Nat} (lt : amount < 64) :
    shiftLeft? word amount = some (word <<< amount.toUInt64) := if_pos lt

theorem lowMask?_eq {length : Nat} (pos : 1 ≤ length) (le : length ≤ 64) :
    lowMask? length = some (lowMask length) := by
  unfold lowMask?
  rw [sub?_eq le]
  exact shiftRight?_eq _ (by omega)

theorem overwrite?_eq {words : Array UInt64} {i : Nat} (lt : i < words.size) (mask value : UInt64) :
    overwrite? words i mask value =
      some (words.modify i fun word => (word &&& ~~~mask) ||| value) := if_pos lt

/-! ## Whole spans -/

/-- The last word of a span is the first one or the next one. -/
theorem last_word_eq {offset length : Nat} (pos : 1 ≤ length) (le : length ≤ 64) :
    (offset + length - 1) / 64 = if 64 < offset % 64 + length then offset / 64 + 1 else offset / 64 := by
  split <;> omega

theorem getElem?_eq_getD {words : Array UInt64} {i : Nat} (lt : i < words.size) :
    words[i]? = some (words.getD i 0) := by
  rw [Array.getD_eq_getD_getElem?, Array.getElem?_eq_getElem lt]
  rfl

/-- **Reading a span is stuck exactly where it is refused**, on a wrong length and past the last word. -/
theorem read?_eq (words : Array UInt64) (offset length : Nat) :
    read? words offset length = (read words offset length).toOption := by
  unfold read? read checkSpan
  by_cases wrong : length < 1 ∨ 64 < length
  · rw [if_pos wrong, if_pos wrong]
    rfl
  rw [if_neg wrong, if_neg wrong, last_word_eq (by omega) (by omega), lowMask?_eq (by omega) (by omega)]
  have shift : offset % 64 < 64 := Nat.mod_lt _ (by decide)
  show (do
    let first ← words[offset / 64]?
    let low ← shiftRight? first (offset % 64)
    if 64 < offset % 64 + length then
      let second ← words[offset / 64 + 1]?
      let high ← shiftLeft? second (← sub? 64 (offset % 64))
      pure ((low ||| high) &&& lowMask length)
    else pure (low &&& lowMask length)) = _
  have low : ∀ word, shiftRight? word (offset % 64) = some (word >>> (offset % 64).toUInt64) :=
    fun word => shiftRight?_eq word shift
  by_cases straddles : 64 < offset % 64 + length
  · have amount : sub? 64 (offset % 64) = some (64 - offset % 64) := sub?_eq (Nat.le_of_lt shift)
    have high : ∀ word, shiftLeft? word (64 - offset % 64) =
        some (word <<< (64 - offset % 64).toUInt64) := fun word => shiftLeft?_eq word (by omega)
    simp only [if_pos straddles]
    by_cases inside : offset / 64 + 1 < words.size
    · rw [if_neg (Nat.not_le.mpr inside), getElem?_eq_getD (by omega : offset / 64 < words.size),
        getElem?_eq_getD inside]
      simp only [Option.bind_eq_bind, Option.bind_some, low, amount, high]
      unfold peek
      dsimp only
      rw [if_pos straddles]
      rfl
    · rw [if_pos (Nat.not_lt.mp inside), Array.getElem?_eq_none (Nat.not_lt.mp inside)]
      cases words[offset / 64]? with
      | none => rfl
      | some first =>
        rw [Option.bind_eq_bind, Option.bind_some, low]
        rfl
  · simp only [if_neg straddles]
    by_cases inside : offset / 64 < words.size
    · rw [if_neg (Nat.not_le.mpr inside), getElem?_eq_getD inside, Option.bind_eq_bind,
        Option.bind_some, low]
      unfold peek
      dsimp only
      rw [if_neg straddles, UInt64.or_zero]
      rfl
    · rw [if_pos (Nat.not_lt.mp inside), Array.getElem?_eq_none (Nat.not_lt.mp inside)]
      rfl

theorem poke?_eq {words : Array UInt64} {offset length : Nat} (pos : 1 ≤ length) (le : length ≤ 64)
    (inside : offset + length ≤ 64 * words.size) (value : UInt64) :
    poke? words offset length value = some (poke words offset length value) := by
  have shift : offset % 64 < 64 := Nat.mod_lt _ (by decide)
  have first : offset / 64 < words.size := by omega
  unfold poke? poke
  simp only [lowMask?_eq pos le, shiftLeft?_eq _ shift, overwrite?_eq first, Option.bind_eq_bind,
    Option.bind_some]
  by_cases straddles : 64 < offset % 64 + length
  · have spill : 64 - offset % 64 < 64 := by omega
    have second : offset / 64 + 1 < words.size := by omega
    rw [if_pos straddles, if_pos straddles, sub?_eq (Nat.le_of_lt shift)]
    simp only [shiftRight?_eq _ spill, Option.bind_some]
    exact overwrite?_eq (by rwa [Array.size_modify]) _ _
  · rw [if_neg straddles, if_neg straddles]
    rfl

/-- **Overwriting a span is stuck exactly where it is refused.** -/
theorem write?_eq (value : UInt64) (words : Array UInt64) (offset length : Nat) :
    write? value words offset length = (write value words offset length).toOption := by
  unfold write? write
  rw [read?_eq]
  unfold read
  cases checked : checkSpan words offset length with
  | error refusal => rfl
  | ok _ =>
    obtain ⟨pos, le, inside⟩ := checkSpan_eq_ok_iff.mp checked
    show (poke? words offset length value >>= _) = _
    rw [poke?_eq pos le inside]
    rfl

end Cuckoo.BitString

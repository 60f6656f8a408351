import Cuckoo.Refusal

/-!
# The flat bit string of an array of words

An array of 64-bit words is one long string of bits: bit `j` of the string is bit `j % 64` of word
`j / 64`. A span of up to 64 bits of the string is a number, its lowest bit first, and may straddle
two words. This file reads and overwrites spans with a few word operations each.

`bit` is the view through which both are understood: a read is the number formed by the bits of the
span, and an overwrite changes the bits of the span and no other.
-/

set_option autoImplicit false

namespace Cuckoo.BitString

/-- Bit `j` of the string; past the last word there are only zeros. -/
def bit (words : Array UInt64) (j : Nat) : Bool := (words.getD (j / 64) 0).toNat.testBit (j % 64)

/-- The number formed by `length` bits from `offset` on, lowest bit first. -/
def spanValue (words : Array UInt64) (offset : Nat) : (length : Nat) → Nat
  | 0 => 0
  | length + 1 => (bit words offset).toNat + 2 * spanValue words (offset + 1) length

/-- A word whose low `length` bits are ones, for lengths between 1 and 64. -/
def lowMask (length : Nat) : UInt64 := 0xffffffffffffffff >>> (64 - length).toUInt64

/-- The span of `length` bits at `offset`, where what lies past the last word counts as zero. -/
def peek (words : Array UInt64) (offset length : Nat) : UInt64 :=
  let shift := offset % 64
  let low := words.getD (offset / 64) 0 >>> shift.toUInt64
  let high :=
    if 64 < shift + length then words.getD (offset / 64 + 1) 0 <<< (64 - shift).toUInt64 else 0
  (low ||| high) &&& lowMask length

/-- Overwrites the span of `length` bits at `offset` with the low bits of `value`. -/
def poke (words : Array UInt64) (offset length : Nat) (value : UInt64) : Array UInt64 :=
  let shift := offset % 64
  let mask := lowMask length
  let value := value &&& mask
  let words := words.modify (offset / 64) fun word =>
    (word &&& ~~~(mask <<< shift.toUInt64)) ||| (value <<< shift.toUInt64)
  if 64 < shift + length then
    let spill := (64 - shift).toUInt64
    words.modify (offset / 64 + 1) fun word => (word &&& ~~~(mask >>> spill)) ||| (value >>> spill)
  else words

/-- Refuses spans of a wrong length and spans whose last bit lies past the last word. -/
def checkSpan (words : Array UInt64) (offset length : Nat) : Checked Unit :=
  if length < 1 ∨ 64 < length then throw .spanLength
  else if words.size ≤ (offset + length - 1) / 64 then throw .spanOutside
  else pure ()

def read (words : Array UInt64) (offset length : Nat) : Checked UInt64 := do
  checkSpan words offset length
  pure (peek words offset length)

def write (value : UInt64) (words : Array UInt64) (offset length : Nat) :
    Checked (UInt64 × Array UInt64) := do
  checkSpan words offset length
  pure (peek words offset length, poke words offset length value)

@[simp] theorem size_poke (words : Array UInt64) (offset length : Nat) (value : UInt64) :
    (poke words offset length value).size = words.size := by
  simp only [poke]
  split <;> simp

end Cuckoo.BitString

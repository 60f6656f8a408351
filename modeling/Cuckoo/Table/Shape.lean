import Cuckoo.Failure

/-!
# The dimensions of a table

A table has `buckets` buckets of `slots` slots, each `bits` wide, laid out one after the other with
no space between them. Its size in bits has to be a 64-bit number; every other number that a table
computes, such as the offset of a slot, is bounded by that size.
-/

set_option autoImplicit false

namespace Cuckoo

structure Shape where
  buckets : Nat
  slots : Nat
  bits : Nat
  deriving Repr, DecidableEq

namespace Shape

def minSlots : Nat := 2

def capacity (s : Shape) : Nat := s.buckets * s.slots

/-- The number of bits that the slots take. -/
def totalBits (s : Shape) : Nat := s.capacity * s.bits

/-- The number of 64-bit words that hold the slots. The last one may have bits to spare. -/
def words (s : Shape) : Nat := (s.totalBits + 63) / 64

/-- Where a slot begins in the flat bit string. -/
def offset (s : Shape) (bucket slot : Nat) : Nat := (bucket * s.slots + slot) * s.bits

/-- Objects to dimensions that no table can have. -/
def check (s : Shape) : Except Failure Unit := do
  if s.buckets = 0 then throw .noBuckets
  if s.slots < minSlots then throw (.tooFewSlots s.slots)
  if s.bits < 1 ∨ 64 < s.bits then throw (.badEntryWidth s.bits)
  if UInt64.size ≤ s.totalBits then throw (.tooLarge s.buckets s.slots s.bits)

end Shape

end Cuckoo

import Cuckoo.Refusal

/-!
# Fingerprints

A fingerprint is a short tag that stands for an object. The value 0 marks an empty slot, so **a
fingerprint is never 0**: it is the lowest window of the hash that is not zero, where windows of the
wanted width are cut from the low end and a rest that makes no complete window is left out. A hash
all of whose windows are zero gets the fingerprint 1.
-/

set_option autoImplicit false

namespace Cuckoo.Fingerprint

/-- The widest fingerprint. A wider slot holds a fingerprint of this width. -/
def maxWidth : Nat := 32

/-- The complete `width`-bit windows of a hash, lowest first. -/
def windows (width : Nat) (hash : UInt32) : List UInt32 :=
  (List.range (maxWidth / width)).map fun k =>
    (hash >>> (k * width).toUInt32) &&& (0xffffffff >>> (maxWidth - width).toUInt32)

/-- The fingerprint of a hash, for widths between 1 and 32. -/
def ofHash (width : Nat) (hash : UInt32) : Checked UInt32 :=
  if 1 ≤ width ∧ width ≤ maxWidth then
    pure (((windows width hash).find? (· ≠ 0)).getD 1)
  else throw (.fingerprintWidth width)

end Cuckoo.Fingerprint

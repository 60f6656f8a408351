import Cuckoo.Bytes.Endian
import Mathlib.Algebra.Group.Nat.Defs

/-!
# Bytes and numbers, there and back

The number read from bytes that were written is the number, less what did not fit, and the bytes
written from a number that was read are the bytes.
-/

set_option autoImplicit false

namespace Cuckoo.Bytes

@[simp] theorem length_littleEndian (size n : Nat) : (littleEndian size n).length = size := by
  induction size generalizing n with
  | zero => rfl
  | succ size ih => simp [littleEndian, ih]

@[simp] theorem length_bigEndian (size n : Nat) : (bigEndian size n).length = size := by
  simp [bigEndian]

theorem ofLittleEndian_littleEndian (size n : Nat) :
    ofLittleEndian (littleEndian size n) = n % 256 ^ size := by
  induction size generalizing n with
  | zero => simp [littleEndian, ofLittleEndian, Nat.mod_one]
  | succ size ih =>
    rw [littleEndian, ofLittleEndian, ih, Nat.pow_succ', Nat.mod_mul, UInt8.toNat_ofNat']

/-- Reading back what was written gives the number, less what did not fit. -/
theorem ofBigEndian_bigEndian (size n : Nat) :
    ofBigEndian (bigEndian size n) = n % 256 ^ size := by
  simp [ofBigEndian, bigEndian, ofLittleEndian_littleEndian]

theorem littleEndian_ofLittleEndian (bytes : List UInt8) :
    littleEndian bytes.length (ofLittleEndian bytes) = bytes := by
  induction bytes with
  | nil => rfl
  | cons byte rest ih =>
    have small := byte.toNat_lt
    rw [List.length_cons, littleEndian, ofLittleEndian]
    congr 1
    · apply UInt8.toNat.inj
      rw [UInt8.toNat_ofNat']
      omega
    · rw [show (byte.toNat + 256 * ofLittleEndian rest) / 256 = ofLittleEndian rest by omega, ih]

theorem bigEndian_ofBigEndian (bytes : List UInt8) :
    bigEndian bytes.length (ofBigEndian bytes) = bytes := by
  rw [bigEndian, ofBigEndian, ← List.length_reverse, littleEndian_ofLittleEndian,
    List.reverse_reverse]

/-- One more byte stands above all others. -/
theorem ofLittleEndian_concat (bytes : List UInt8) (byte : UInt8) :
    ofLittleEndian (bytes ++ [byte]) =
      byte.toNat <<< (8 * bytes.length) + ofLittleEndian bytes := by
  induction bytes with
  | nil => simp [ofLittleEndian]
  | cons first rest ih =>
    rw [List.cons_append, ofLittleEndian, ih, ofLittleEndian, List.length_cons, Nat.mul_succ,
      Nat.shiftLeft_add, Nat.shiftLeft_eq _ 8]
    omega

theorem ofLittleEndian_lt (bytes : List UInt8) : ofLittleEndian bytes < 256 ^ bytes.length := by
  induction bytes with
  | nil => simp [ofLittleEndian]
  | cons byte rest ih =>
    have small := byte.toNat_lt
    rw [ofLittleEndian, List.length_cons, Nat.pow_succ]
    omega

theorem ofBigEndian_lt (bytes : List UInt8) : ofBigEndian bytes < 256 ^ bytes.length := by
  simpa [ofBigEndian] using ofLittleEndian_lt bytes.reverse

end Cuckoo.Bytes

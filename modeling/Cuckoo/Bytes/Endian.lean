/-!
# Numbers as bytes

A natural number and its fixed-size byte strings, in both orders. Encoding keeps the number modulo
`256 ^ size`, so a signed value is written through its two's complement word and a value that is
too large loses its high bytes.
-/

set_option autoImplicit false

namespace Cuckoo.Bytes

/-- The low `size` bytes of `n`, least significant first. -/
def littleEndian : (size n : Nat) → List UInt8
  | 0, _ => []
  | size + 1, n => UInt8.ofNat n :: littleEndian size (n / 256)

/-- The low `size` bytes of `n`, most significant first. -/
def bigEndian (size n : Nat) : List UInt8 := (littleEndian size n).reverse

/-- The number whose bytes are given, least significant first. -/
def ofLittleEndian : List UInt8 → Nat
  | [] => 0
  | byte :: rest => byte.toNat + 256 * ofLittleEndian rest

/-- The number whose bytes are given, most significant first. -/
def ofBigEndian (bytes : List UInt8) : Nat := ofLittleEndian bytes.reverse

end Cuckoo.Bytes

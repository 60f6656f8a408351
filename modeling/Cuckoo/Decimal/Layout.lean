import Cuckoo.Decimal.Shortest

/-!
# How a number is written

Two layouts of the shortest decimal of a floating-point number. `positional` writes it out in full,
with no exponent whatever its size and no point when it is whole. `scientific` writes one digit
before the point and always an exponent. Both write a minus sign wherever the sign bit is set.
-/

set_option autoImplicit false

namespace Cuckoo.Decimal

namespace Scaled

/-- All digits, with the point in its place. -/
def positional (x : Scaled) : String :=
  let digits := x.digits.repr
  if 0 ≤ x.exponent then
    digits ++ "".pushn '0' (if x.digits = 0 then 0 else x.exponent.toNat)
  else
    let places := (-x.exponent).toNat
    let digits := "".pushn '0' (places + 1 - digits.length) ++ digits
    let whole := digits.length - places
    s!"{digits.take whole}.{digits.drop whole}"

/-- One digit, the others behind a point, and the power of ten of the first digit. -/
def scientific (x : Scaled) : String :=
  let digits := x.digits.repr
  let point := if digits.length = 1 then "" else "."
  let exponent := x.exponent + Int.ofNat (digits.length - 1)
  s!"{digits.take 1}{point}{digits.drop 1}e{exponent}"

end Scaled

/-- A number with the given layout of its size; what is not a number has no sign. -/
def write (layout : Scaled → String) (x : Float) : String :=
  if x.isNaN then "NaN"
  else
    let sign := if x.toBits >>> 63 = 1 then "-" else ""
    if x.isInf then sign ++ "inf" else sign ++ layout (Binary.ofBits x.toBits).shortest

/-- The number without an exponent. -/
def positional (x : Float) : String := write Scaled.positional x

/-- The number with an exponent. -/
def scientific (x : Float) : String := write Scaled.scientific x

end Cuckoo.Decimal

/-!
# The shortest decimal of a binary number

A 64-bit floating-point number stands for every real number that rounds to it: the interval between
the midpoints to its two neighbours, ends included when its significand is even. Among the decimals
in that interval, `shortest` takes one on the coarsest decimal grid, which is the one with the fewest
digits, and on that grid the one nearest to the number; of two that are equally near, the larger.

All arithmetic is on natural numbers, so nothing is lost to rounding on the way.
-/

set_option autoImplicit false

namespace Cuckoo.Decimal

/-- The number `significand * 2 ^ exponent`. -/
structure Binary where
  significand : Nat
  exponent : Int
  deriving Repr, DecidableEq

/-- The number `digits * 10 ^ exponent`. -/
structure Scaled where
  digits : Nat
  exponent : Int
  deriving Repr, DecidableEq

namespace Binary

/-- The size of the finite floating-point number with the given bits, without its sign. -/
def ofBits (bits : UInt64) : Binary :=
  let fraction : Nat := bits.toNat % (1 <<< 52)
  let field : Nat := (bits.toNat >>> 52) % (1 <<< 11)
  if field = 0 then ⟨fraction, -1074⟩ else ⟨fraction + 1 <<< 52, Int.ofNat field - 1075⟩

/-- Compares `d * 10 ^ k` with `n * 2 ^ q`. -/
def compareDecimal (d : Nat) (k : Int) (n : Nat) (q : Int) : Ordering :=
  compare ((d * Nat.pow 10 k.toNat) <<< (-q).toNat) (n <<< q.toNat * Nat.pow 10 (-k).toNat)

/-- Does `d * 10 ^ k` round to the number? The distance to the neighbour below is halved where the
number is a power of two, save for the least exponent. -/
def rounds (x : Binary) (d : Nat) (k : Int) : Bool :=
  let belowGap := if x.significand = 1 <<< 52 ∧ x.exponent ≠ -1074 then 1 else 2
  let low := compareDecimal d k (4 * x.significand - belowGap) (x.exponent - 2)
  let high := compareDecimal d k (4 * x.significand + 2) (x.exponent - 2)
  if x.significand % 2 = 0 then low != .lt && high != .gt else low == .gt && high == .lt

/-- The largest multiple of `10 ^ k` that is not above the number, divided by `10 ^ k`. -/
def floorAt (x : Binary) (k : Int) : Nat :=
  (x.significand <<< x.exponent.toNat * Nat.pow 10 (-k).toNat) /
    (Nat.pow 10 k.toNat <<< (-x.exponent).toNat)

/-- The multiple of `10 ^ k` nearest to the number, of those that round to it. The candidates are
the two multiples around the number: if any multiple rounds to it, one of these does. -/
def nearest? (x : Binary) (k : Int) : Option Scaled :=
  let below := x.floorAt k
  match x.rounds below k, x.rounds (below + 1) k with
  | true, true =>
    let nearer := compareDecimal (2 * below + 1) k (2 * x.significand) x.exponent
    some ⟨if nearer = .gt then below else below + 1, k⟩
  | true, false => some ⟨below, k⟩
  | false, true => some ⟨below + 1, k⟩
  | false, false => none

/-- The shortest decimal that rounds to the number. The search starts two powers of ten above an
estimate of the number's own; no number needs more than 17 digits. -/
def shortest (x : Binary) : Scaled :=
  if x.significand = 0 then ⟨0, 0⟩
  else
    let estimate := (Int.ofNat x.significand.log2 + x.exponent) * 30103 / 100000
    ((List.range 21).findSome? fun step => x.nearest? (estimate + 2 - Int.ofNat step)).getD ⟨0, 0⟩

end Binary

end Cuckoo.Decimal

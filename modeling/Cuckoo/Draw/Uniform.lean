import Cuckoo.Draw.ChaCha
import Cuckoo.Refusal

/-!
# Choosing a number below a bound

A random word is a binary fraction; its product with the bound `n`, rounded down, is a number below
`n`. When the fraction of the product that is rounded away is large enough to matter, a second word
refines it and may carry one into the result. So one or two words are taken, and every number is
equally likely up to an error far below what can be noticed.
-/

set_option autoImplicit false

namespace Cuckoo.Draw

/-- Takes a random number: a word of 32 bits where the bound fits into one, else of 64 bits. -/
def drawFor (n : Nat) (s : Keystream) : Nat × Keystream :=
  if n < UInt32.size then
    let (word, s) := s.word32
    (word.toNat, s)
  else
    let (word, s) := s.word64
    (word.toNat, s)

/-- The number of values of the words that `drawFor` takes. -/
def wordRange (n : Nat) : Nat := if n < UInt32.size then UInt32.size else UInt64.size

/-- Chooses a number below `n`. -/
def below (n : Nat) (s : Keystream) : Checked (Nat × Keystream) :=
  if n = 0 then throw .emptyRange
  else
    let range := wordRange n
    let (first, s) := drawFor n s
    let result := first * n / range
    let fraction := first * n % range
    if range - n < fraction then
      let (second, s) := drawFor n s
      let carry := if range ≤ fraction + second * n / range then 1 else 0
      pure (result + carry, s)
    else pure (result, s)

end Cuckoo.Draw

/-!
# A reproducible stream of words

The ChaCha stream cipher with eight rounds, used as a generator: its key stream is a sequence of
32-bit words that depends on a 256-bit key only. A key is grown from a 64-bit seed by a linear
congruential generator with a permuted output.

A `Keystream` is a position in the sequence. It keeps the current block of sixteen words, so that a
block is computed once.
-/

set_option autoImplicit false

namespace Cuckoo.Draw

/-- Rotation of a word to the left, by an amount between 1 and 31. -/
def rotateLeft (x amount : UInt32) : UInt32 := (x <<< amount) ||| (x >>> (32 - amount))

abbrev Block := Vector UInt32 16

abbrev CipherKey := Vector UInt32 8

namespace ChaCha

/-- Mixes four words of a state. -/
def quarterRound (s : Block) (a b c d : Fin 16) : Block :=
  let s := s.set a (s[a] + s[b])
  let s := s.set d (rotateLeft (s[d] ^^^ s[a]) 16)
  let s := s.set c (s[c] + s[d])
  let s := s.set b (rotateLeft (s[b] ^^^ s[c]) 12)
  let s := s.set a (s[a] + s[b])
  let s := s.set d (rotateLeft (s[d] ^^^ s[a]) 8)
  let s := s.set c (s[c] + s[d])
  s.set b (rotateLeft (s[b] ^^^ s[c]) 7)

/-- Mixes the four columns of a state and then its four diagonals. -/
def doubleRound (s : Block) : Block :=
  let s := quarterRound s 0 4 8 12
  let s := quarterRound s 1 5 9 13
  let s := quarterRound s 2 6 10 14
  let s := quarterRound s 3 7 11 15
  let s := quarterRound s 0 5 10 15
  let s := quarterRound s 1 6 11 12
  let s := quarterRound s 2 7 8 13
  quarterRound s 3 4 9 14

/-- The state before mixing: four fixed words, the key, the number of the block, two zeros. -/
def initial (key : CipherKey) (number : UInt64) : Block :=
  #v[0x61707865, 0x3320646e, 0x79622d32, 0x6b206574,
    key[0], key[1], key[2], key[3], key[4], key[5], key[6], key[7],
    number.toUInt32, (number >>> 32).toUInt32, 0, 0]

/-- A block of the key stream: eight rounds of mixing, added to the state before. -/
def block (key : CipherKey) (number : UInt64) : Block :=
  let start := initial key number
  let mixed := doubleRound (doubleRound (doubleRound (doubleRound start)))
  Vector.zipWith (· + ·) mixed start

def growStep (state : UInt64) : UInt64 := state * 6364136223846793005 + 11634580027462260723

/-- The word that a state of that generator gives: some of its bits, rotated by its highest five. -/
def growWord (state : UInt64) : UInt32 :=
  let x := (((state >>> 18) ^^^ state) >>> 27).toUInt32
  let amount := (state >>> 59).toUInt32
  (x >>> amount) ||| (x <<< ((32 - amount) % 32))

/-- The key that grows from a seed: the words of the next eight states. -/
def keyOfSeed (seed : UInt64) : CipherKey :=
  Vector.ofFn fun i => growWord (Nat.repeat growStep (i.val + 1) seed)

end ChaCha

/-- A position in a key stream. -/
structure Keystream where
  key : CipherKey
  /-- The number of the block after the current one. -/
  next : UInt64
  block : Block
  /-- How many words of the current block have been taken. -/
  taken : Nat
  deriving DecidableEq

namespace Keystream

/-- The beginning of the key stream of a seed, where no block has been computed yet. -/
def ofSeed (seed : UInt64) : Keystream := ⟨ChaCha.keyOfSeed seed, 0, Vector.replicate 16 0, 16⟩

def word32 (s : Keystream) : UInt32 × Keystream :=
  if h : s.taken < 16 then (s.block[s.taken], { s with taken := s.taken + 1 })
  else
    let block := ChaCha.block s.key s.next
    (block[0], { s with next := s.next + 1, block, taken := 1 })

/-- Takes the next two words as one, the low half first. -/
def word64 (s : Keystream) : UInt64 × Keystream :=
  let (low, s) := s.word32
  let (high, s) := s.word32
  (low.toUInt64 ||| (high.toUInt64 <<< 32), s)

end Keystream

end Cuckoo.Draw

import Cuckoo.Hash.Digest
import Cuckoo.Proofs.Bytes.Endian
import Mathlib.Data.List.Basic
import Mathlib.Data.List.GetD

/-!
# MurmurHash3, as it is written down

The 128-bit hash for 64-bit words, the way its description has it: constants, the mixing of one block, the
tail, the length and the finalisation, over bit vectors with a rotation of their own. Block `i` stands at
byte `16 * i`; bytes that are not there are zero.

**Nothing here is shared with what computes digests.** Only the shape of the result is, so that the two can
be compared. A slip that every way to compute a digest has in common still shows against this.
-/

set_option autoImplicit false

namespace Cuckoo.Hash

namespace Murmur3

/-! ## The description -/

def c₁ : BitVec 64 := 0x87c37b91114253d5

def c₂ : BitVec 64 := 0x4cf5ad432745937f

/-- The two halves of the state. -/
structure Lanes where
  h₁ : BitVec 64
  h₂ : BitVec 64
  deriving DecidableEq

/-- The little-endian number in eight bytes of a string, from a place on. Where the string ends before, the
rest of them are zeros. -/
def word (bytes : List UInt8) (place : Nat) : BitVec 64 :=
  BitVec.ofNat 64 ((List.range 8).foldr (fun i rest => (bytes.getD (place + i) 0).toNat + 256 * rest) 0)

/-- One block. -/
def body (lanes : Lanes) (k₁ k₂ : BitVec 64) : Lanes :=
  let h₁ := lanes.h₁ ^^^ ((k₁ * c₁).rotateLeft 31 * c₂)
  let h₁ := (h₁.rotateLeft 27 + lanes.h₂) * 5 + 0x52dce729
  let h₂ := lanes.h₂ ^^^ ((k₂ * c₂).rotateLeft 33 * c₁)
  let h₂ := (h₂.rotateLeft 31 + h₁) * 5 + 0x38495ab5
  ⟨h₁, h₂⟩

/-- All complete blocks of a string, in order. -/
def blocks (lanes : Lanes) (bytes : List UInt8) : Lanes :=
  (List.range (bytes.length / 16)).foldl
    (fun lanes i => body lanes (word bytes (16 * i)) (word bytes (16 * i + 8))) lanes

/-- The bytes behind the blocks: the first half if there is one, the second half if there are more than
eight bytes. -/
def tail (lanes : Lanes) (bytes : List UInt8) : Lanes :=
  let h₂ := if 8 < bytes.length then lanes.h₂ ^^^ ((word bytes 8 * c₂).rotateLeft 33 * c₁) else lanes.h₂
  let h₁ := if 0 < bytes.length then lanes.h₁ ^^^ ((word bytes 0 * c₁).rotateLeft 31 * c₂) else lanes.h₁
  ⟨h₁, h₂⟩

def fmix (k : BitVec 64) : BitVec 64 :=
  let k := (k ^^^ (k >>> 33)) * 0xff51afd7ed558ccd
  let k := (k ^^^ (k >>> 33)) * 0xc4ceb9fe1a85ec53
  k ^^^ (k >>> 33)

/-- The length, and the two halves into each other. -/
def finalize (lanes : Lanes) (length : Nat) : Lanes :=
  let h₁ := lanes.h₁ ^^^ BitVec.ofNat 64 length
  let h₂ := lanes.h₂ ^^^ BitVec.ofNat 64 length
  let h₁ := h₁ + h₂
  let h₂ := h₂ + h₁
  let h₁ := fmix h₁
  let h₂ := fmix h₂
  let h₁ := h₁ + h₂
  let h₂ := h₂ + h₁
  ⟨h₁, h₂⟩

/-- The hash of a string, with both halves at the seed in the beginning. -/
def hash (seed : BitVec 64) (bytes : List UInt8) : Lanes :=
  finalize (tail (blocks ⟨seed, seed⟩ bytes) (bytes.drop (16 * (bytes.length / 16)))) bytes.length

/-- The hash, as a pair of machine words. -/
def digest (seed : UInt64) (bytes : List UInt8) : Digest :=
  ⟨.ofBitVec (hash seed.toBitVec bytes).h₁, .ofBitVec (hash seed.toBitVec bytes).h₂⟩

/-- Two whole blocks and a tail that reaches into its second half. -/
example : digest 0 ("The quick brown fox jumps over the lazy dog".toList.map fun letter =>
    letter.toNat.toUInt8) = ⟨0xe34bbc7bbc071b6c, 0x7a433ca9c49a9347⟩ := by
  decide +kernel

/-! ## Words by their places -/

open Bytes in
/-- The number in the eight bytes is the number that they spell. -/
theorem word_eq (bytes : List UInt8) (place : Nat) :
    word bytes place = BitVec.ofNat 64 (ofLittleEndian ((bytes.drop place).take 8)) := by
  have spelt : ∀ (size place : Nat),
      (List.range size).foldr (fun i rest => (bytes.getD (place + i) 0).toNat + 256 * rest) 0 =
        ofLittleEndian ((bytes.drop place).take size) := by
    intro size
    induction size with
    | zero => exact fun _ => rfl
    | succ size ih =>
      intro place
      have next := ih (place + 1)
      rw [List.range_succ_eq_map, List.foldr_cons, List.foldr_map]
      simp only [Nat.succ_eq_add_one, Nat.add_zero, ← Nat.add_assoc, Nat.add_right_comm place _ 1]
      rw [next]
      by_cases inside : place < bytes.length
      · rw [List.drop_eq_getElem_cons inside, List.take_succ_cons, ofLittleEndian,
          List.getD_eq_getElem _ _ inside]
      · rw [List.getD_eq_default _ _ (Nat.le_of_not_lt inside), List.drop_eq_nil_of_le (by omega),
          List.drop_eq_nil_of_le (by omega), List.take_nil, List.take_nil]
        rfl
  unfold word
  rw [spelt]

theorem word_drop (bytes : List UInt8) (skipped place : Nat) :
    word (bytes.drop skipped) place = word bytes (skipped + place) := by
  rw [word_eq, word_eq, List.drop_drop]

theorem word_append_left {front : List UInt8} (back : List UInt8) {place : Nat}
    (inside : place + 8 ≤ front.length) : word (front ++ back) place = word front place := by
  rw [word_eq, word_eq, List.drop_append_of_le_length (by omega),
    List.take_append_of_le_length (by rw [List.length_drop]; omega)]

theorem word_append_right (front back : List UInt8) (place : Nat) :
    word (front ++ back) (front.length + place) = word back place := by
  rw [← word_drop, List.drop_left]

/-! ## Blocks -/

theorem blocks_short (lanes : Lanes) {bytes : List UInt8} (short : bytes.length < 16) :
    blocks lanes bytes = lanes := by
  unfold blocks
  rw [Nat.div_eq_of_lt short]
  rfl

theorem blocks_one (lanes : Lanes) {block : List UInt8} (size : block.length = 16) :
    blocks lanes block = body lanes (word block 0) (word block 8) := by
  unfold blocks
  rw [size]
  rfl

/-- Whole blocks first, and then what is behind them. -/
theorem blocks_append (lanes : Lanes) {whole : List UInt8} (divides : 16 ∣ whole.length)
    (bytes : List UInt8) : blocks lanes (whole ++ bytes) = blocks (blocks lanes whole) bytes := by
  obtain ⟨k, length⟩ := divides
  have front : whole.length / 16 = k := by omega
  have all : (whole ++ bytes).length / 16 = k + bytes.length / 16 := by
    rw [List.length_append]
    omega
  have before : ∀ i ∈ List.range k, ∀ lanes : Lanes,
      body lanes (word (whole ++ bytes) (16 * i)) (word (whole ++ bytes) (16 * i + 8)) =
        body lanes (word whole (16 * i)) (word whole (16 * i + 8)) := by
    intro i mem lanes
    have inside := List.mem_range.mp mem
    rw [word_append_left bytes (by omega), word_append_left bytes (by omega)]
  have behind : ∀ i, ∀ lanes : Lanes, body lanes (word (whole ++ bytes) (16 * (k + i)))
      (word (whole ++ bytes) (16 * (k + i) + 8)) =
        body lanes (word bytes (16 * i)) (word bytes (16 * i + 8)) := by
    intro i lanes
    rw [show 16 * (k + i) = whole.length + 16 * i by omega, Nat.add_assoc, word_append_right,
      word_append_right]
  unfold blocks
  rw [all, front, List.range_add, List.foldl_append, List.foldl_map]
  simp only [behind]
  rw [List.foldl_ext _ _ lanes fun lanes i mem => before i mem lanes]

end Murmur3

end Cuckoo.Hash

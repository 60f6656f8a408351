import Cuckoo.Hash.Digest
import Cuckoo.Proofs.Hash.Reference

/-!
# The digest, block by block

The steps of a digest are those of `Murmur3`: one lemma for each, from the rotation to the final
scrambling, says that machine words and bit vectors go the same way.

Everything that computes a digest has, at any time, mixed some whole blocks and kept the bytes behind
them. `Absorbed` says so, and it has two uses: **more whole blocks may follow** (`Absorbed.append`), and
**the digest may be taken** (`Absorbed.finish_eq`).
-/

set_option autoImplicit false

namespace Cuckoo.Hash

open Bytes

/-! ## Words -/

theorem toNat_wordOfBytes {bytes : List UInt8} (short : bytes.length ≤ 8) :
    (wordOfBytes bytes).toNat = ofLittleEndian bytes := by
  -- of at most eight bytes no bit is shifted out
  have exact : ∀ l : List UInt8, l.length ≤ 8 →
      (l.foldr (fun byte (word : UInt64) => (word <<< 8) ||| byte.toUInt64) 0).toNat =
        ofLittleEndian l := by
    intro l
    induction l with
    | nil => exact fun _ => rfl
    | cons byte l ih =>
      intro short
      rw [List.length_cons] at short
      have small := ofLittleEndian_lt l
      have room : 256 ^ l.length ≤ 256 ^ 7 := Nat.pow_le_pow_right (by decide) (by omega)
      have shifted : ofLittleEndian l <<< 8 < 2 ^ 64 := by
        rw [Nat.shiftLeft_eq]
        omega
      rw [List.foldr_cons, UInt64.toNat_or, UInt64.toNat_shiftLeft, ih (by omega),
        UInt8.toNat_toUInt64, show (8 : UInt64).toNat % 64 = 8 from rfl, Nat.mod_eq_of_lt shifted,
        ← Nat.shiftLeft_add_eq_or_of_lt byte.toNat_lt, Nat.shiftLeft_eq, ofLittleEndian]
      omega
  unfold wordOfBytes
  rw [List.take_of_length_le short, exact bytes short]

theorem wordOfBytes_take (bytes : List UInt8) {size : Nat} (enough : 8 ≤ size) :
    wordOfBytes (bytes.take size) = wordOfBytes bytes := by
  unfold wordOfBytes
  rw [List.take_take, Nat.min_eq_left enough]

theorem wordOfBytes_append {bytes : List UInt8} (full : 8 ≤ bytes.length) (more : List UInt8) :
    wordOfBytes (bytes ++ more) = wordOfBytes bytes := by
  unfold wordOfBytes
  rw [List.take_append_of_le_length full]

theorem toBitVec_wordOfBytes (bytes : List UInt8) :
    (wordOfBytes bytes).toBitVec = Murmur3.word bytes 0 := by
  have short : (bytes.take 8).length ≤ 8 := List.length_take_le 8 bytes
  rw [Murmur3.word_eq, List.drop_zero, ← toNat_wordOfBytes short,
    wordOfBytes_take bytes (Nat.le_refl 8)]
  apply BitVec.eq_of_toNat_eq
  rw [BitVec.toNat_ofNat]
  exact (Nat.mod_eq_of_lt (wordOfBytes bytes).toNat_lt).symm

theorem toBitVec_wordOfBytes_drop (bytes : List UInt8) (place : Nat) :
    (wordOfBytes (bytes.drop place)).toBitVec = Murmur3.word bytes place := by
  rw [toBitVec_wordOfBytes, Murmur3.word_drop, Nat.add_zero]

theorem toBitVec_rotateLeft (x : UInt64) {amount : UInt64} (some : 0 < amount.toNat)
    (inside : amount.toNat < 64) :
    (rotateLeft x amount).toBitVec = x.toBitVec.rotateLeft amount.toNat := by
  have left : (amount.toBitVec % 64).toNat = amount.toNat := Nat.mod_eq_of_lt inside
  have right : ((64 - amount).toBitVec % 64).toNat = 64 - amount.toNat := by
    have exact : (64 - amount).toNat = 64 - amount.toNat :=
      UInt64.toNat_sub_of_le _ _ (UInt64.le_iff_toNat_le.mpr (Nat.le_of_lt inside))
    rw [BitVec.toNat_umod, UInt64.toNat_toBitVec, exact]
    exact Nat.mod_eq_of_lt (show 64 - amount.toNat < 64 by omega)
  unfold rotateLeft
  rw [BitVec.rotateLeft_def, Nat.mod_eq_of_lt inside, UInt64.toBitVec_or, UInt64.toBitVec_shiftLeft,
    UInt64.toBitVec_shiftRight, BitVec.shiftLeft_eq', BitVec.ushiftRight_eq', left, right]

theorem toBitVec_scrambleFirst (k : UInt64) : (scrambleFirst k).toBitVec =
    (k.toBitVec * Murmur3.c₁).rotateLeft 31 * Murmur3.c₂ := by
  unfold scrambleFirst
  rw [UInt64.toBitVec_mul, toBitVec_rotateLeft _ (by decide) (by decide), UInt64.toBitVec_mul]
  rfl

theorem toBitVec_scrambleSecond (k : UInt64) : (scrambleSecond k).toBitVec =
    (k.toBitVec * Murmur3.c₂).rotateLeft 33 * Murmur3.c₁ := by
  unfold scrambleSecond
  rw [UInt64.toBitVec_mul, toBitVec_rotateLeft _ (by decide) (by decide), UInt64.toBitVec_mul]
  rfl

theorem toBitVec_avalanche (x : UInt64) : (avalanche x).toBitVec = Murmur3.fmix x.toBitVec := rfl

namespace Digest

/-! ## Lanes -/

/-- The two words of a digest, as bit vectors. -/
def toLanes (lanes : Digest) : Murmur3.Lanes := ⟨lanes.first.toBitVec, lanes.second.toBitVec⟩

theorem eq_digest {digest : Digest} {seed : UInt64} {bytes : List UInt8}
    (same : digest.toLanes = Murmur3.hash seed.toBitVec bytes) : digest = Murmur3.digest seed bytes := by
  unfold Murmur3.digest
  rw [← same]
  rfl

theorem toLanes_start (seed : UInt64) : (start seed).toLanes = ⟨seed.toBitVec, seed.toBitVec⟩ := rfl

theorem toLanes_mix (lanes : Digest) (k₁ k₂ : UInt64) :
    (lanes.mix k₁ k₂).toLanes = Murmur3.body lanes.toLanes k₁.toBitVec k₂.toBitVec := by
  unfold mix toLanes Murmur3.body
  simp (disch := decide) only [UInt64.toBitVec_add, UInt64.toBitVec_mul, UInt64.toBitVec_xor,
    toBitVec_scrambleFirst, toBitVec_scrambleSecond, toBitVec_rotateLeft]
  rfl

theorem toLanes_finish_eq (lanes : Digest) (k₁ k₂ : UInt64) (size : Nat) :
    (lanes.finish k₁ k₂ (UInt64.ofNat size)).toLanes = Murmur3.finalize
      ⟨(lanes.first ^^^ scrambleFirst k₁).toBitVec, (lanes.second ^^^ scrambleSecond k₂).toBitVec⟩
      size := by
  unfold finish toLanes Murmur3.finalize
  simp only [UInt64.toBitVec_add, UInt64.toBitVec_xor, toBitVec_avalanche]
  rfl

/-- A half of the tail that is not there is zero, and is scrambled to zero. -/
theorem toLanes_finish (lanes : Digest) {tail : List UInt8} {size : Nat} :
    (lanes.finish (wordOfBytes tail) (wordOfBytes (tail.drop 8)) (UInt64.ofNat size)).toLanes =
      Murmur3.finalize (Murmur3.tail lanes.toLanes tail) size := by
  have first : (if 0 < tail.length then
      lanes.toLanes.h₁ ^^^ ((Murmur3.word tail 0 * Murmur3.c₁).rotateLeft 31 * Murmur3.c₂)
      else lanes.toLanes.h₁) = (lanes.first ^^^ scrambleFirst (wordOfBytes tail)).toBitVec := by
    rw [UInt64.toBitVec_xor, toBitVec_scrambleFirst, toBitVec_wordOfBytes]
    split
    next => rfl
    next none =>
      rw [List.eq_nil_of_length_eq_zero (Nat.eq_zero_of_not_pos none)]
      exact BitVec.xor_zero.symm
  have second : (if 8 < tail.length then
      lanes.toLanes.h₂ ^^^ ((Murmur3.word tail 8 * Murmur3.c₂).rotateLeft 33 * Murmur3.c₁)
      else lanes.toLanes.h₂) =
        (lanes.second ^^^ scrambleSecond (wordOfBytes (tail.drop 8))).toBitVec := by
    rw [UInt64.toBitVec_xor, toBitVec_scrambleSecond, toBitVec_wordOfBytes_drop]
    split
    next => rfl
    next none =>
      rw [← Nat.add_zero 8, ← Murmur3.word_drop, List.drop_eq_nil_of_le (Nat.le_of_not_lt none)]
      exact BitVec.xor_zero.symm
  unfold Murmur3.tail
  rw [first, second, toLanes_finish_eq]

end Digest

/-! ## Where a computation stands -/

open Digest

/-- So many whole blocks have been mixed into lanes that began at a seed. -/
structure Absorbed (seed : UInt64) (whole : List UInt8) (lanes : Digest) (mixed : UInt64) : Prop where
  blocks : 16 ∣ whole.length
  lanes_eq : lanes.toLanes = Murmur3.blocks ⟨seed.toBitVec, seed.toBitVec⟩ whole
  mixed_eq : mixed = UInt64.ofNat whole.length

theorem absorbed_start (seed : UInt64) : Absorbed seed [] (start seed) 0 :=
  ⟨Nat.dvd_zero 16, toLanes_start seed, rfl⟩

section

variable {seed : UInt64} {whole : List UInt8} {lanes : Digest} {mixed : UInt64}
  (absorbed : Absorbed seed whole lanes mixed)
include absorbed

theorem Absorbed.block {block : List UInt8} (size : block.length = 16) :
    Absorbed seed (whole ++ block) (lanes.mix (wordOfBytes block) (wordOfBytes (block.drop 8)))
      (mixed + 16) where
  blocks := by
    rw [List.length_append, size]
    exact Nat.dvd_add absorbed.blocks (Nat.dvd_refl 16)
  lanes_eq := by
    rw [Murmur3.blocks_append _ absorbed.blocks, Murmur3.blocks_one _ size, ← absorbed.lanes_eq,
      toLanes_mix, toBitVec_wordOfBytes, toBitVec_wordOfBytes_drop]
  mixed_eq := by
    rw [List.length_append, size, UInt64.ofNat_add, absorbed.mixed_eq]
    rfl

/-- With the bytes behind the blocks in hand, the digest is that of all bytes. -/
theorem Absorbed.finish_eq {tail : List UInt8} (short : tail.length < 16) :
    lanes.finish (wordOfBytes tail) (wordOfBytes (tail.drop 8)) (mixed + UInt64.ofNat tail.length) =
      Murmur3.digest seed (whole ++ tail) := by
  obtain ⟨⟨k, length⟩, lanes_eq, mixed_eq⟩ := absorbed
  have behind : 16 * ((whole ++ tail).length / 16) = whole.length := by
    rw [List.length_append]
    omega
  apply eq_digest
  unfold Murmur3.hash
  rw [behind, List.drop_left, Murmur3.blocks_append _ ⟨k, length⟩, Murmur3.blocks_short _ short,
    ← lanes_eq, mixed_eq, ← UInt64.ofNat_add, ← List.length_append, toLanes_finish]

end

theorem Digest.mixBlocks_rest : ∀ (blocks : Nat) (lanes : Digest) (bytes : List UInt8),
    (mixBlocks blocks lanes bytes).2 = bytes.drop (16 * blocks) := by
  intro blocks
  induction blocks with
  | zero => exact fun _ _ => rfl
  | succ blocks ih =>
    intro lanes bytes
    rw [mixBlocks, ih, List.drop_drop, show 16 * (blocks + 1) = 16 + 16 * blocks by omega]

/-- The blocks in front of a string are mixed one after the other. -/
theorem Absorbed.mixBlocks {seed : UInt64} : ∀ {blocks : Nat} {whole bytes : List UInt8}
    {lanes : Digest} {mixed : UInt64}, Absorbed seed whole lanes mixed → 16 * blocks ≤ bytes.length →
      Absorbed seed (whole ++ bytes.take (16 * blocks)) (Digest.mixBlocks blocks lanes bytes).1
        (mixed + 16 * UInt64.ofNat blocks) := by
  intro blocks
  induction blocks with
  | zero =>
    intro whole bytes lanes mixed absorbed _
    rwa [Nat.mul_zero, List.take_zero, List.append_nil, show UInt64.ofNat 0 = 0 from rfl,
      UInt64.mul_zero, UInt64.add_zero]
  | succ blocks ih =>
    intro whole bytes lanes mixed absorbed enough
    have size : (bytes.take 16).length = 16 := List.length_take_of_le (by omega)
    have behind : 16 * blocks ≤ (bytes.drop 16).length := by
      rw [List.length_drop]
      omega
    have next := absorbed.block size
    rw [List.drop_take, wordOfBytes_take _ (by decide), wordOfBytes_take _ (by decide)] at next
    have rest := ih next behind
    have mixed_eq : mixed + 16 + 16 * UInt64.ofNat blocks = mixed + 16 * UInt64.ofNat (blocks + 1) := by
      rw [UInt64.ofNat_add, UInt64.mul_add, UInt64.add_assoc, UInt64.add_comm 16]
      rfl
    rwa [List.append_assoc, ← List.take_add, mixed_eq, Nat.add_comm 16, ← Nat.mul_succ] at rest

/-- The digest of a string that is given whole. -/
theorem Digest.ofBytes_eq_digest (seed : UInt64) (bytes : List UInt8) :
    ofBytes seed bytes = Murmur3.digest seed bytes := by
  have enough : 16 * (bytes.length / 16) ≤ bytes.length := Nat.mul_div_le _ _
  have front : (bytes.take (16 * (bytes.length / 16))).length = 16 * (bytes.length / 16) :=
    List.length_take_of_le enough
  have short : (bytes.drop (16 * (bytes.length / 16))).length < 16 := by
    rw [List.length_drop]
    omega
  have whole := ((absorbed_start seed).mixBlocks enough).finish_eq short
  rw [List.nil_append, List.take_append_drop] at whole
  unfold ofBytes
  dsimp only
  rw [mixBlocks_rest, ← whole, UInt64.zero_add, show (16 : UInt64) = UInt64.ofNat 16 from rfl,
    ← UInt64.ofNat_mul, ← UInt64.ofNat_add, ← front, ← List.length_append, front,
    List.take_append_drop]

end Cuckoo.Hash

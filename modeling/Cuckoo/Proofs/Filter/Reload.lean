import Cuckoo.Filter.Format
import Cuckoo.Proofs.Bytes.Field
import Cuckoo.Proofs.Filter.Backing

/-!
# A filter read back from its own bytes

The header keeps 32 bits of the slot count and 63 of the number of fingerprints, so not every filter
can be read back. **But one that is read back has the table of the original**, cell for cell: what the
header lost would show in the number of words or in the number of fingerprints, and both are compared
with what is found.
-/

set_option autoImplicit false

namespace Cuckoo.Filter

open Bytes Runs

theorem natural_eq_ok_iff {field : HeaderField} {x : Int} {n : Nat} :
    Header.natural field x = .ok n ↔ x = n := by
  unfold Header.natural
  simp only [throw_eq, pure_eq, ite_error_eq_ok_iff, Except.ok.injEq]
  omega

theorem ofOrdinal_ordinal (s : Scheme) : Scheme.ofOrdinal s.ordinal = .ok s := by
  cases s <;> rfl

theorem read_fields (h : Header) (rest : List UInt8) :
    Header.read (Field.encodeAll h.fields ++ rest) = .ok (h, rest) := by
  unfold Header.fields
  simp only [encodeAll_cons, encodeAll_nil, List.append_assoc, List.nil_append]
  unfold Header.read
  simp only [readInt32_encode, readInt64_encode, Header.expect, pure_eq, ok_bind]

theorem read_encode (f : Filter) : Header.read f.encode =
    .ok (Header.ofFilter f, Field.encodeAll (f.table.words.toList.map .word)) := by
  unfold encode
  rw [encodeAll_append, read_fields]

theorem sound_of_decode {bytes : List UInt8} {seed : UInt64} {g : Filter}
    (run : decode bytes seed = .ok g) : g.Sound ∧ g.seed = seed := by
  unfold decode at run
  obtain ⟨⟨header, rest⟩, -, run⟩ := bind_eq_ok_iff.mp run
  obtain ⟨scheme, -, run⟩ := bind_eq_ok_iff.mp run
  obtain ⟨buckets, -, run⟩ := bind_eq_ok_iff.mp run
  obtain ⟨_, accepts, run⟩ := bind_eq_ok_iff.mp run
  obtain ⟨slots, -, run⟩ := bind_eq_ok_iff.mp run
  obtain ⟨bits, -, run⟩ := bind_eq_ok_iff.mp run
  obtain ⟨count, -, run⟩ := bind_eq_ok_iff.mp run
  obtain ⟨wordCount, -, run⟩ := bind_eq_ok_iff.mp run
  split at run
  next => cases run
  next words _ _ =>
    obtain ⟨table, made, run⟩ := bind_eq_ok_iff.mp run
    cases run
    obtain ⟨h, rfl⟩ := Table.wellFormed_ofWords made
    exact ⟨⟨h, mapError_eq_ok_iff.mp accepts⟩, rfl⟩

/-- A slot count that has lost its high bits asks for another number of words. -/
theorem slots_eq_of_words_eq {s : Shape} (pos : 0 < s.buckets) (wide : 1 ≤ s.bits) {slots : Nat}
    (low : slots % 2 ^ 32 = s.slots % 2 ^ 32) (small : slots < 2 ^ 32)
    (same : (Shape.mk s.buckets slots s.bits).words = s.words) : slots = s.slots := by
  rw [Nat.mod_eq_of_lt small] at low
  rcases Nat.lt_or_ge s.slots (2 ^ 32) with whole | cut
  · rw [low, Nat.mod_eq_of_lt whole]
  · have more : slots + 2 ^ 32 ≤ s.slots := by omega
    have least : 1 ≤ s.buckets * s.bits := Nat.mul_pos pos wide
    have larger : s.buckets * slots * s.bits + 2 ^ 32 ≤ s.totalBits := by
      calc s.buckets * slots * s.bits + 2 ^ 32
          ≤ s.buckets * slots * s.bits + 2 ^ 32 * (s.buckets * s.bits) :=
            Nat.add_le_add_left (Nat.le_mul_of_pos_right _ least) _
        _ = s.buckets * (slots + 2 ^ 32) * s.bits := by
            rw [Nat.mul_add, Nat.add_mul, Nat.mul_comm s.buckets (2 ^ 32), Nat.mul_assoc (2 ^ 32)]
        _ ≤ s.totalBits := Nat.mul_le_mul_right _ (Nat.mul_le_mul_left _ more)
    unfold Shape.words at same
    rw [show (Shape.mk s.buckets slots s.bits).totalBits = s.buckets * slots * s.bits from rfl] at same
    omega

/-- **What is read back from the bytes of a filter has its scheme and its table.** -/
theorem decode_encode {f g : Filter} (s : f.Sound) {seed : UInt64}
    (run : decode f.encode seed = .ok g) : g.scheme = f.scheme ∧ g.table = f.table := by
  have h : f.table.WellFormed := s.wellFormed
  have buckets := Int64.toInt_ofNat_of_lt h.buckets_lt
  have bits := Int32.toInt_ofNat_of_lt (Nat.lt_of_le_of_lt h.bits_le (by decide : 64 < 2 ^ 31))
  unfold decode at run
  rw [read_encode, ok_bind] at run
  dsimp only [Header.ofFilter] at run
  rw [ofOrdinal_ordinal, ok_bind, natural_eq_ok_iff.mpr buckets, ok_bind] at run
  obtain ⟨_, -, run⟩ := bind_eq_ok_iff.mp run
  obtain ⟨slots, cut, run⟩ := bind_eq_ok_iff.mp run
  rw [natural_eq_ok_iff.mpr bits, ok_bind] at run
  obtain ⟨count, -, run⟩ := bind_eq_ok_iff.mp run
  rw [natural_eq_ok_iff.mpr (Int64.toInt_ofNat_of_lt h.size_words_lt), ok_bind, ← Array.length_toList,
    ← List.append_nil (Field.encodeAll _), readWords_encodeAll] at run
  dsimp only at run
  obtain ⟨table, made, run⟩ := bind_eq_ok_iff.mp run
  cases run
  rw [Array.toArray_toList] at made
  obtain ⟨h', rfl⟩ := Table.wellFormed_ofWords made
  -- the slot count is the one number of the shape that the header may have cut
  have same : slots = f.table.shape.slots := by
    rw [natural_eq_ok_iff] at cut
    have small := (Int32.ofNat f.table.shape.slots).toInt_lt
    have low := Int.bmod_emod (x := f.table.shape.slots) (m := Int32.size)
    rw [← Int32.toInt_ofNat', cut] at low
    rw [cut] at small
    refine slots_eq_of_words_eq h.buckets_pos h.bits_pos (Int.ofNat.inj low) (by omega) ?_
    rw [← h.size_words]
    exact h'.size_words.symm
  subst same
  -- both counts are the number of entries, and the entries are in the words
  have counts : count = f.table.count := h'.count_eq.trans h.count_eq.symm
  subst counts
  exact ⟨rfl, rfl⟩

end Cuckoo.Filter

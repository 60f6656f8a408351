import Cuckoo.Proofs.BitString.Overwrite
import Cuckoo.Proofs.Runs
import Cuckoo.Table.Basic
import Mathlib.Algebra.Group.Nat.Defs

/-!
# The packed table as an array of cells

`Table.cell` reads the packed words as a two-dimensional array. This file shows that it behaves as
one: **overwriting a cell changes that cell and no other**, and overwriting it with what it held
before restores the table, words and count together.

`Table.store` is the overwrite without the checks; `exchange_eq` says that inside the dimensions
`Table.exchange` is nothing else. The bounds that this rests on (spans of different cells are apart,
and all of them lie inside the words) are facts about `Shape` alone.
-/

set_option autoImplicit false

namespace Cuckoo

open BitString Runs

namespace Shape

variable {s : Shape}

theorem check_eq_ok_iff : s.check = .ok () ↔
    0 < s.buckets ∧ 2 ≤ s.slots ∧ 1 ≤ s.bits ∧ s.bits ≤ 64 ∧ s.totalBits < 2 ^ 64 := by
  unfold check minSlots UInt64.size
  simp only [throw_eq, error_bind, pure_eq, ite_error_eq_ok_iff, and_true]
  omega

theorem offset_add_bits_le_totalBits {bucket slot : Nat} (hb : bucket < s.buckets)
    (hs : slot < s.slots) : s.offset bucket slot + s.bits ≤ s.totalBits := by
  have index : bucket * s.slots + slot + 1 ≤ s.capacity := by
    calc bucket * s.slots + slot + 1 ≤ bucket * s.slots + s.slots := by omega
      _ = (bucket + 1) * s.slots := by rw [Nat.succ_mul]
      _ ≤ s.buckets * s.slots := Nat.mul_le_mul_right _ hb
  calc s.offset bucket slot + s.bits = (bucket * s.slots + slot + 1) * s.bits := by
        rw [offset, Nat.succ_mul]
    _ ≤ s.capacity * s.bits := Nat.mul_le_mul_right _ index

theorem offset_add_bits_le {bucket slot : Nat} (hb : bucket < s.buckets) (hs : slot < s.slots) :
    s.offset bucket slot + s.bits ≤ 64 * s.words := by
  have span := offset_add_bits_le_totalBits hb hs
  unfold words
  omega

theorem index_inj {b₁ s₁ b₂ s₂ : Nat} (h₁ : s₁ < s.slots) (h₂ : s₂ < s.slots)
    (h : b₁ * s.slots + s₁ = b₂ * s.slots + s₂) : b₁ = b₂ ∧ s₁ = s₂ := by
  have row : ∀ {b k : Nat}, k < s.slots → (b * s.slots + k) / s.slots = b := by
    intro b k hk
    rw [Nat.mul_comm, Nat.mul_add_div (by omega), Nat.div_eq_of_lt hk, Nat.add_zero]
  have same : b₁ = b₂ := by rw [← row (b := b₁) h₁, ← row (b := b₂) h₂, h]
  subst same
  exact ⟨rfl, by omega⟩

/-- The slots begin one after the other, bucket by bucket. -/
theorem offset_div_mod (place : Nat) :
    s.offset (place / s.slots) (place % s.slots) = place * s.bits := by
  rw [offset, Nat.mul_comm (place / s.slots), Nat.div_add_mod]

theorem offset_disjoint {b₁ s₁ b₂ s₂ : Nat} (h₁ : s₁ < s.slots) (h₂ : s₂ < s.slots)
    (h : ¬ (b₁ = b₂ ∧ s₁ = s₂)) :
    s.offset b₁ s₁ + s.bits ≤ s.offset b₂ s₂ ∨ s.offset b₂ s₂ + s.bits ≤ s.offset b₁ s₁ := by
  have apart : b₁ * s.slots + s₁ ≠ b₂ * s.slots + s₂ := fun same => h (index_inj h₁ h₂ same)
  unfold offset
  rcases Nat.lt_or_gt_of_ne apart with before | behind
  · left
    rw [← Nat.succ_mul]
    exact Nat.mul_le_mul_right _ before
  · right
    rw [← Nat.succ_mul]
    exact Nat.mul_le_mul_right _ behind

end Shape

namespace Table

/-- The table with a cell overwritten by a value, cut to the width of a cell. -/
def store (t : Table) (bucket slot : Nat) (value : UInt64) : Table :=
  let value := value &&& lowMask t.shape.bits
  { t with
    words := poke t.words (t.shape.offset bucket slot) t.shape.bits value
    count := recount t.count (t.cell bucket slot) value }

@[simp] theorem shape_store (t : Table) (bucket slot : Nat) (value : UInt64) :
    (t.store bucket slot value).shape = t.shape := rfl

@[simp] theorem size_words_store (t : Table) (bucket slot : Nat) (value : UInt64) :
    (t.store bucket slot value).words.size = t.words.size := size_poke ..

/-- Counting follows a change and its reversal back to where it started, as long as an occupied cell
has been counted. -/
theorem recount_recount {count : Nat} {old new : UInt64} (counted : old ≠ emptyCell → 0 < count) :
    recount (recount count old new) new old = count := by
  unfold recount
  by_cases ho : old = emptyCell <;> by_cases hn : new = emptyCell <;>
    simp only [ho, hn, if_true, if_false]
  · omega
  · have := counted ho
    omega

/-! ## Checks -/

theorem checkBucket_eq_ok_iff {t : Table} {bucket : Nat} :
    t.checkBucket bucket = .ok () ↔ bucket < t.shape.buckets := by
  unfold checkBucket
  split
  next inside => exact ⟨fun _ => inside, fun _ => rfl⟩
  next outside => exact ⟨fun run => (by cases run), fun inside => absurd inside outside⟩

theorem checkSlot_eq_ok_iff {t : Table} {bucket slot : Nat} :
    t.checkSlot bucket slot = .ok () ↔ bucket < t.shape.buckets ∧ slot < t.shape.slots := by
  unfold checkSlot
  rw [bind_eq_ok_iff]
  constructor
  · rintro ⟨_, checked, run⟩
    refine ⟨checkBucket_eq_ok_iff.mp checked, Decidable.by_contra fun outside => ?_⟩
    rw [if_neg outside] at run
    cases run
  · rintro ⟨hb, hs⟩
    exact ⟨(), checkBucket_eq_ok_iff.mpr hb, if_pos hs⟩

theorem read_offset_eq {t : Table} (ok : t.shape.check = .ok ())
    (size : t.words.size = t.shape.words) {bucket slot : Nat} (hb : bucket < t.shape.buckets)
    (hs : slot < t.shape.slots) :
    BitString.read t.words (t.shape.offset bucket slot) t.shape.bits = .ok (t.cell bucket slot) := by
  obtain ⟨-, -, pos, le, -⟩ := Shape.check_eq_ok_iff.mp ok
  have inside : t.shape.offset bucket slot + t.shape.bits ≤ 64 * t.words.size := by
    rw [size]
    exact Shape.offset_add_bits_le hb hs
  unfold BitString.read
  rw [checkSpan_eq_ok_iff.mpr ⟨pos, le, inside⟩]
  rfl

/-! ## What the dimensions promise -/

section

variable {t : Table} (h : t.WellFormed)
include h

theorem WellFormed.buckets_pos : 0 < t.shape.buckets := (Shape.check_eq_ok_iff.mp h.shape_ok).1

theorem WellFormed.two_le_slots : 2 ≤ t.shape.slots := (Shape.check_eq_ok_iff.mp h.shape_ok).2.1

theorem WellFormed.bits_pos : 1 ≤ t.shape.bits := (Shape.check_eq_ok_iff.mp h.shape_ok).2.2.1

theorem WellFormed.bits_le : t.shape.bits ≤ 64 := (Shape.check_eq_ok_iff.mp h.shape_ok).2.2.2.1

theorem WellFormed.totalBits_lt : t.shape.totalBits < 2 ^ 64 :=
  (Shape.check_eq_ok_iff.mp h.shape_ok).2.2.2.2

/-- Every bucket has at least two slots of at least one bit, so the number of buckets stays far below
the range of a word. -/
theorem WellFormed.buckets_lt : t.shape.buckets < 2 ^ 63 := by
  have size := h.totalBits_lt
  have slots := Nat.mul_le_mul_left t.shape.buckets h.two_le_slots
  have bits := Nat.mul_le_mul_left t.shape.capacity h.bits_pos
  unfold Shape.totalBits at size
  unfold Shape.capacity at size bits
  omega

theorem WellFormed.size_words_lt : t.words.size < 2 ^ 63 := by
  have total := h.totalBits_lt
  rw [h.size_words, Shape.words]
  omega

theorem WellFormed.totalBits_le : t.shape.totalBits ≤ 64 * t.words.size := by
  rw [h.size_words, Shape.words]
  omega

theorem WellFormed.span_inside {bucket slot : Nat} (hb : bucket < t.shape.buckets)
    (hs : slot < t.shape.slots) :
    t.shape.offset bucket slot + t.shape.bits ≤ 64 * t.words.size := by
  rw [h.size_words]
  exact Shape.offset_add_bits_le hb hs

theorem WellFormed.fits_iff (value : UInt64) :
    t.fits value = true ↔ value &&& lowMask t.shape.bits = value := by
  rw [← and_not_lowMask_eq_zero_iff h.bits_pos h.bits_le]
  unfold fits
  exact beq_iff_eq

theorem WellFormed.fits_iff_lt (value : UInt64) :
    t.fits value = true ↔ value.toNat < 2 ^ t.shape.bits :=
  (h.fits_iff value).trans (and_lowMask_eq_self_iff h.bits_pos h.bits_le value)

theorem WellFormed.fits_emptyCell : t.fits emptyCell = true := by
  rw [h.fits_iff_lt]
  exact Nat.two_pow_pos _

theorem WellFormed.fits_cell (bucket slot : Nat) : t.fits (t.cell bucket slot) = true :=
  (h.fits_iff _).mpr (peek_and_lowMask _ _ h.bits_pos h.bits_le)

/-! ## One cell overwritten -/

theorem WellFormed.exchange_eq {bucket slot : Nat} (hb : bucket < t.shape.buckets)
    (hs : slot < t.shape.slots) (value : UInt64) :
    t.exchange value bucket slot = .ok (t.cell bucket slot, t.store bucket slot value) := by
  have span : checkSpan t.words (t.shape.offset bucket slot) t.shape.bits = .ok () :=
    checkSpan_eq_ok_iff.mpr ⟨h.bits_pos, h.bits_le, h.span_inside hb hs⟩
  simp only [exchange, checkSlot, checkBucket, if_pos hb, if_pos hs, BitString.write, span, pure_eq,
    ok_bind]
  rfl

/-- **Overwriting a cell changes that cell and no other.** -/
theorem WellFormed.cell_store {bucket slot : Nat} (hb : bucket < t.shape.buckets)
    (hs : slot < t.shape.slots) (value : UInt64) (bucket' : Nat) {slot' : Nat}
    (hs' : slot' < t.shape.slots) :
    (t.store bucket slot value).cell bucket' slot' =
      if bucket' = bucket ∧ slot' = slot then value &&& lowMask t.shape.bits
      else t.cell bucket' slot' := by
  have inside := h.span_inside hb hs
  split
  next same =>
    obtain ⟨rfl, rfl⟩ := same
    exact (peek_poke h.bits_pos h.bits_le inside _).trans (by rw [UInt64.and_assoc, UInt64.and_self])
  next other =>
    exact peek_poke_of_disjoint h.bits_pos h.bits_le inside _ h.bits_pos h.bits_le
      (Shape.offset_disjoint hs' hs other)

/-- **An overwrite is undone by writing back what the cell held**, words and count together. -/
theorem WellFormed.store_store {bucket slot : Nat} (hb : bucket < t.shape.buckets)
    (hs : slot < t.shape.slots) (value : UInt64)
    (counted : t.cell bucket slot ≠ emptyCell → 0 < t.count) :
    (t.store bucket slot value).store bucket slot (t.cell bucket slot) = t := by
  have inside := h.span_inside hb hs
  have old : t.cell bucket slot &&& lowMask t.shape.bits = t.cell bucket slot :=
    peek_and_lowMask _ _ h.bits_pos h.bits_le
  have new : (t.store bucket slot value).cell bucket slot = value &&& lowMask t.shape.bits := by
    rw [h.cell_store hb hs value bucket hs, if_pos ⟨rfl, rfl⟩]
  have words : poke (t.store bucket slot value).words (t.shape.offset bucket slot) t.shape.bits
      (t.cell bucket slot) = t.words := poke_poke_peek h.bits_pos h.bits_le inside _
  rw [store, shape_store, old, new, words]
  show Table.mk t.shape t.words (recount (recount t.count (t.cell bucket slot) _) _ _) = t
  rw [recount_recount counted]

end

end Table

end Cuckoo

import Cuckoo.Proofs.Table.Edits
import Mathlib.Data.List.ProdSigma

/-!
# The count of a table is exact

A table keeps the number of its used cells beside the words and changes it with every overwrite, from
the value that a cell held and the value that is left of the new one. `Tallied` says what the number is
good for: it is the number of cells that are not zero and of the entries that are listed, it is zero for
the empty table only, and an overwrite that lowers it finds it positive.

Every table that can be reached is tallied, and **so is the table after each single change of a
sequence** (`WellFormed.exists_prefix`). That is what can be said of an operation half-way through.
-/

set_option autoImplicit false

namespace Cuckoo

open BitString Runs

/-- The places of a table: every slot of every bucket. -/
def Shape.places (s : Shape) : List (Nat × Nat) := List.range s.buckets ×ˢ List.range s.slots

theorem Shape.mem_places_iff {s : Shape} {bucket slot : Nat} :
    (bucket, slot) ∈ s.places ↔ bucket < s.buckets ∧ slot < s.slots := by
  unfold places
  rw [List.mem_product, List.mem_range, List.mem_range]

namespace Table

/-- Is there something in a cell? -/
def uses (t : Table) (place : Nat × Nat) : Bool := t.cell place.1 place.2 ≠ 0

/-- What overwriting a cell with a value does to the number of used cells. -/
def gain (t : Table) (value : UInt64) (bucket slot : Nat) : Int :=
  (if value.toNat % 2 ^ t.shape.bits = 0 then 0 else 1) - if t.cell bucket slot = 0 then 0 else 1

/-- The count of a table is the number of its used cells, and follows every overwrite. -/
structure Tallied (t : Table) : Prop where
  used : t.count = t.shape.places.countP t.uses
  entries : t.count = t.entries.length
  le_capacity : t.count ≤ t.capacity
  eq_zero_iff : t.count = 0 ↔
    ∀ bucket < t.shape.buckets, ∀ slot < t.shape.slots, t.cell bucket slot = 0
  pos : ∀ {bucket slot}, bucket < t.shape.buckets → slot < t.shape.slots →
    t.cell bucket slot ≠ 0 → 0 < t.count
  exchange : ∀ (value : UInt64) {bucket slot}, bucket < t.shape.buckets → slot < t.shape.slots →
    ∃ t', t.exchange value bucket slot = .ok (t.cell bucket slot, t') ∧
      (t'.count : Int) = t.count + t.gain value bucket slot

theorem contents_eq_map_places (t : Table) :
    t.contents = t.shape.places.map fun place => (place.1, t.cell place.1 place.2) := by
  unfold contents row Shape.places
  simp only [SProd.sprod, List.product, List.map_flatMap, List.map_map]
  rfl

theorem length_entries_eq_countP (t : Table) : t.entries.length = t.shape.places.countP t.uses := by
  rw [entries_eq_filter, contents_eq_map_places, ← List.countP_eq_length_filter, List.countP_map]
  rfl

section

variable {t : Table} (h : t.WellFormed)
include h

theorem WellFormed.tallied : t.Tallied where
  used := h.count_eq.trans t.length_entries_eq_countP
  entries := h.count_eq
  le_capacity := h.count_le_capacity
  eq_zero_iff := by
    rw [h.count_eq, t.length_entries_eq_countP, List.countP_eq_zero]
    constructor
    · intro free bucket hb slot hs
      simpa [uses] using free (bucket, slot) (Shape.mem_places_iff.mpr ⟨hb, hs⟩)
    · rintro free ⟨bucket, slot⟩ mem
      obtain ⟨hb, hs⟩ := Shape.mem_places_iff.mp mem
      simpa [uses] using free bucket hb slot hs
  pos := h.counted
  exchange := by
    intro value bucket slot hb hs
    refine ⟨_, h.exchange_eq hb hs value, ?_⟩
    have pos : t.cell bucket slot ≠ 0 → 0 < t.count := h.counted hb hs
    have kept : value &&& lowMask t.shape.bits = 0 ↔ value.toNat % 2 ^ t.shape.bits = 0 := by
      rw [← toNat_and_lowMask h.bits_pos h.bits_le, ← UInt64.toNat_inj]
      rfl
    show ((recount t.count (t.cell bucket slot) (value &&& lowMask t.shape.bits) : Nat) : Int) = _
    unfold recount gain emptyCell
    by_cases old : t.cell bucket slot = 0 <;>
      by_cases new : value &&& lowMask t.shape.bits = 0
    · rw [if_pos old, if_pos new, if_pos (kept.mp new), if_pos old]
      rfl
    · rw [if_pos old, if_neg new, if_neg (mt kept.mpr new), if_pos old]
      rfl
    · have := pos old
      rw [if_neg old, if_pos new, if_pos (kept.mp new), if_neg old]
      omega
    · rw [if_neg old, if_neg new, if_neg (mt kept.mpr new), if_neg old]
      omega

end

/-! ## Half-way through a sequence of changes -/

theorem reached_iff_wellFormed {t : Table} : Reached t ↔ t.WellFormed :=
  ⟨Reached.wellFormed, fun h => .ofWords h.ofWords_eq⟩

theorem editAll_append {edits edits' : List Edit} : ∀ {t u : Table},
    t.editAll edits = .ok u → t.editAll (edits ++ edits') = u.editAll edits' := by
  induction edits with
  | nil =>
    intro t u run
    cases run
    rfl
  | cons e edits ih =>
    intro t u run
    obtain ⟨next, first, rest⟩ := bind_eq_ok_iff.mp run
    rw [List.cons_append, editAll, first]
    exact ih rest

/-- Every table that a sequence of changes leads through is well-formed. -/
theorem WellFormed.exists_prefix : ∀ (edits : List Edit) {t t' : Table}, t.WellFormed →
    t.editAll edits = .ok t' → ∀ k, ∃ u, t.editAll (edits.take k) = .ok u ∧ u.WellFormed := by
  intro edits
  induction edits with
  | nil =>
    intro t t' h _ k
    exact ⟨t, by rw [List.take_nil]; rfl, h⟩
  | cons e edits ih =>
    intro t t' h run k
    cases k with
    | zero => exact ⟨t, rfl, h⟩
    | succ k =>
      obtain ⟨next, first, rest⟩ := bind_eq_ok_iff.mp run
      obtain ⟨u, before, h'⟩ := ih (h.edit first) rest k
      refine ⟨u, ?_, h'⟩
      rw [List.take_succ_cons, Table.editAll, first]
      exact before

end Table

end Cuckoo

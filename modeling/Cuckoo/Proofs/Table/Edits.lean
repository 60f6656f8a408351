import Cuckoo.Proofs.Table.Grid

/-!
# Tables through any number of changes

A change overwrites one cell, or empties the table, or leaves it as it was (`edit_cases`). What these
three keep is kept by every sequence of changes: a reached table is well formed, so it acts as a grid,
and the bits behind its last cell are those it was made with, or zeros.
-/

set_option autoImplicit false

namespace Cuckoo.Table

open BitString Runs

/-- The tables that can be reached: new ones and those made from words, after any changes. -/
inductive Reached : Table → Prop
  | empty {s : Shape} {t : Table} (made : Table.empty s = .ok t) : Reached t
  | ofWords {s : Shape} {words : Array UInt64} {count : Nat} {t : Table}
      (made : Table.ofWords s words count = .ok t) : Reached t
  | edit {t t' : Table} {e : Edit} (before : Reached t) (run : t.edit e = .ok t') : Reached t'

/-- All bits behind the last cell are zeros. -/
def Spare (t : Table) : Prop := ∀ j, t.shape.totalBits ≤ j → bit t.words j = false

/-! ## One change -/

section

variable {t t' : Table} (h : t.WellFormed)
include h

theorem WellFormed.exchange_cases {value old : UInt64} {bucket slot : Nat}
    (run : t.exchange value bucket slot = .ok (old, t')) :
    bucket < t.shape.buckets ∧ slot < t.shape.slots ∧ t' = t.store bucket slot value := by
  have whole := run
  unfold exchange at run
  obtain ⟨_, checked, -⟩ := bind_eq_ok_iff.mp run
  obtain ⟨hb, hs⟩ := checkSlot_eq_ok_iff.mp checked
  rw [h.exchange_eq hb hs] at whole
  cases whole
  exact ⟨hb, hs, rfl⟩

theorem WellFormed.replaceFirst_cases {new old : UInt64} {bucket : Nat} {found : Option Table}
    (run : t.replaceFirst new old bucket = .ok found) : found = none ∨
      ∃ slot, bucket < t.shape.buckets ∧ slot < t.shape.slots ∧
        found = some (t.store bucket slot new) := by
  have whole := run
  unfold replaceFirst at run
  obtain ⟨_, checked, run⟩ := bind_eq_ok_iff.mp run
  have hb := checkBucket_eq_ok_iff.mp checked
  cases fits : t.fits old with
  | false =>
    rw [fits] at run
    cases run
    exact Or.inl rfl
  | true =>
    rw [h.replaceFirst_eq hb fits] at whole
    cases whole
    cases first : t.slotOf? old bucket with
    | none => exact Or.inl rfl
    | some slot => exact Or.inr ⟨slot, hb, (slotOf?_eq_some first).1, rfl⟩

theorem WellFormed.put_cases {fingerprint : UInt64} {bucket : Nat} {found : Option Table}
    (run : t.put fingerprint bucket = .ok found) : found = none ∨
      ∃ slot, bucket < t.shape.buckets ∧ slot < t.shape.slots ∧
        found = some (t.store bucket slot fingerprint) := by
  unfold put at run
  obtain ⟨_, -, run⟩ := bind_eq_ok_iff.mp run
  split at run
  next =>
    cases run
    exact Or.inl rfl
  next => exact h.replaceFirst_cases run

/-- **What a change can do**: nothing, or empty the table, or overwrite one cell. -/
theorem WellFormed.edit_cases {e : Edit} (run : t.edit e = .ok t') :
    t' = t ∨ (e = .clear ∧ t' = t.clear) ∨ ∃ bucket slot value,
      bucket < t.shape.buckets ∧ slot < t.shape.slots ∧ t' = t.store bucket slot value := by
  cases e with
  | exchange value bucket slot =>
    obtain ⟨⟨old, u⟩, stored, run⟩ := bind_eq_ok_iff.mp run
    cases run
    obtain ⟨hb, hs, rfl⟩ := h.exchange_cases stored
    exact Or.inr (Or.inr ⟨bucket, slot, value, hb, hs, rfl⟩)
  | put fingerprint bucket =>
    obtain ⟨found, stored, run⟩ := bind_eq_ok_iff.mp run
    cases run
    obtain rfl | ⟨slot, hb, hs, rfl⟩ := h.put_cases stored
    · exact Or.inl rfl
    · exact Or.inr (Or.inr ⟨bucket, slot, fingerprint, hb, hs, rfl⟩)
  | replaceFirst new old bucket =>
    obtain ⟨found, stored, run⟩ := bind_eq_ok_iff.mp run
    cases run
    obtain rfl | ⟨slot, hb, hs, rfl⟩ := h.replaceFirst_cases stored
    · exact Or.inl rfl
    · exact Or.inr (Or.inr ⟨bucket, slot, new, hb, hs, rfl⟩)
  | clear =>
    cases run
    exact Or.inr (Or.inl ⟨rfl, rfl⟩)

theorem WellFormed.edit {e : Edit} (run : t.edit e = .ok t') : t'.WellFormed := by
  obtain rfl | ⟨-, rfl⟩ | ⟨bucket, slot, value, hb, hs, rfl⟩ := h.edit_cases run
  · exact h
  · exact h.clear
  · exact h.store hb hs value

theorem WellFormed.padding_edit {e : Edit} (run : t.edit e = .ok t') (keeps : e ≠ .clear) :
    ∀ j, t.shape.totalBits ≤ j → bit t'.words j = bit t.words j := by
  obtain rfl | ⟨clears, -⟩ | ⟨bucket, slot, value, hb, hs, rfl⟩ := h.edit_cases run
  · exact fun _ _ => rfl
  · exact absurd clears keeps
  · exact (h.setsCell_store hb hs value).padding

theorem WellFormed.spare_edit {e : Edit} (run : t.edit e = .ok t') (spare : t.Spare) :
    t'.Spare := by
  obtain rfl | ⟨-, rfl⟩ | ⟨bucket, slot, value, hb, hs, rfl⟩ := h.edit_cases run
  · exact spare
  · exact fun j _ => bit_replicate _ j
  · intro j behind
    rw [(h.setsCell_store hb hs value).padding j behind]
    exact spare j behind

end

/-! ## Any number of changes -/

theorem Reached.wellFormed {t : Table} (reached : Reached t) : t.WellFormed := by
  induction reached with
  | empty made => exact wellFormed_empty made
  | ofWords made => exact (wellFormed_ofWords made).1
  | edit _ run ih => exact ih.edit run

theorem spare_empty {s : Shape} {t : Table} (made : Table.empty s = .ok t) : t.Spare := by
  obtain ⟨_, -, made⟩ := bind_eq_ok_iff.mp made
  cases made
  exact fun j _ => bit_replicate _ j

theorem WellFormed.editAll : ∀ (edits : List Edit) {t t' : Table}, t.WellFormed → t.Spare →
    t.editAll edits = .ok t' → t'.WellFormed ∧ t'.Spare := by
  intro edits
  induction edits with
  | nil =>
    intro t t' h spare run
    cases run
    exact ⟨h, spare⟩
  | cons e edits ih =>
    intro t t' h spare run
    obtain ⟨u, first, rest⟩ := bind_eq_ok_iff.mp run
    exact ih (h.edit first) (h.spare_edit first spare) rest

/-! ## Words from cells -/

/-- Every bit of the words, up to the last cell, is a bit of a cell. -/
theorem WellFormed.bit_eq {t : Table} (h : t.WellFormed) {j : Nat} (inside : j < t.shape.totalBits) :
    j / t.shape.bits / t.shape.slots < t.shape.buckets ∧
    j / t.shape.bits % t.shape.slots < t.shape.slots ∧
    bit t.words j = (t.cell (j / t.shape.bits / t.shape.slots)
      (j / t.shape.bits % t.shape.slots)).toNat.testBit (j % t.shape.bits) := by
  have place : j / t.shape.bits < t.shape.buckets * t.shape.slots :=
    Nat.div_lt_of_lt_mul (Nat.mul_comm _ t.shape.bits ▸ inside)
  refine ⟨Nat.div_lt_of_lt_mul (Nat.mul_comm _ t.shape.slots ▸ place),
    Nat.mod_lt _ h.slots_pos, ?_⟩
  have low : j % t.shape.bits < t.shape.bits := Nat.mod_lt _ h.bits_pos
  unfold cell
  rw [testBit_peek _ _ h.bits_pos h.bits_le, Shape.offset_div_mod, decide_eq_true low, Bool.true_and,
    Nat.mul_comm, Nat.div_add_mod]

theorem WellFormed.words_eq_of_cells {t u : Table} (h : t.WellFormed) (h' : u.WellFormed)
    (spare : t.Spare) (spare' : u.Spare) (shape : t.shape = u.shape)
    (cells : ∀ bucket < t.shape.buckets, ∀ slot < t.shape.slots,
      t.cell bucket slot = u.cell bucket slot) : t.words = u.words := by
  refine ext_bit (by rw [h.size_words, h'.size_words, shape]) fun j => ?_
  rcases Nat.lt_or_ge j t.shape.totalBits with inside | behind
  · obtain ⟨hb, hs, mine⟩ := h.bit_eq inside
    obtain ⟨-, -, theirs⟩ := h'.bit_eq (shape ▸ inside)
    rw [mine, cells _ hb _ hs, theirs, shape]
  · rw [spare j behind, spare' j (shape ▸ behind)]

/-- **A packed table is a grid of numbers.** Every table that can be reached acts as one. Only emptying
a table touches the bits behind its last cell, so two tables that were new and then changed in whatever
ways have the same words as soon as they have the same dimensions and the same cells. -/
theorem refines_grid :
    (∀ t : Table, Reached t → t.ActsAsGrid) ∧
    (∀ (t t' : Table) (e : Edit), Reached t → t.edit e = .ok t' → e ≠ .clear →
      ∀ j, t.shape.totalBits ≤ j → bit t'.words j = bit t.words j) ∧
    ∀ (s s' : Shape) (edits edits' : List Edit) (t t' u u' : Table),
      Table.empty s = .ok t → t.editAll edits = .ok t' →
      Table.empty s' = .ok u → u.editAll edits' = .ok u' → t'.shape = u'.shape →
      (∀ bucket < t'.shape.buckets, ∀ slot < t'.shape.slots,
        t'.cell bucket slot = u'.cell bucket slot) → t'.words = u'.words := by
  refine ⟨?_, ?_, ?_⟩
  · exact fun t reached => reached.wellFormed.actsAsGrid
  · exact fun t t' e reached run keeps => reached.wellFormed.padding_edit run keeps
  · intro s s' edits edits' t t' u u' made run made' run' shape cells
    obtain ⟨h, spare⟩ := WellFormed.editAll edits (wellFormed_empty made) (spare_empty made) run
    obtain ⟨h', spare'⟩ := WellFormed.editAll edits' (wellFormed_empty made') (spare_empty made') run'
    exact h.words_eq_of_cells h' spare spare' shape cells

/-- Two fingerprints are stored in two ways, and a bit behind the cells outlasts one of them. -/
theorem packed_either_way :
    (∃ t t' u', Table.empty ⟨2, 2, 5⟩ = .ok t ∧ t.editAll [.put 3 1, .put 9 1] = .ok t' ∧
      t.editAll [.exchange 41 1 1, .put 3 1] = .ok u' ∧ t'.ActsAsGrid ∧ t'.words = u'.words) ∧
    ∃ t t', Table.ofWords ⟨2, 2, 5⟩ #[0x100000] 0 = .ok t ∧ t.edit (.put 3 1) = .ok t' ∧
      bit t'.words 20 = true := by
  obtain ⟨grid, padding, determined⟩ := refines_grid
  constructor
  · have made : Table.empty ⟨2, 2, 5⟩ = .ok ⟨⟨2, 2, 5⟩, #[0], 0⟩ := rfl
    have first := @Reached.edit _ ⟨⟨2, 2, 5⟩, #[0xc00], 1⟩ (.put 3 1) (.empty made) rfl
    have second := @Reached.edit _ ⟨⟨2, 2, 5⟩, #[0x48c00], 2⟩ (.put 9 1) first rfl
    refine ⟨_, _, ⟨⟨2, 2, 5⟩, #[0x48c00], 2⟩, made, rfl, rfl, grid _ second, ?_⟩
    exact determined _ _ [.put 3 1, .put 9 1] [.exchange 41 1 1, .put 3 1] _ _ _ _ made rfl made rfl
      rfl fun _ _ _ _ => rfl
  · have made : Table.ofWords ⟨2, 2, 5⟩ #[0x100000] 0 = .ok ⟨⟨2, 2, 5⟩, #[0x100000], 0⟩ := rfl
    refine ⟨_, ⟨⟨2, 2, 5⟩, #[0x100c00], 1⟩, made, rfl, ?_⟩
    exact padding _ _ (.put 3 1) (.ofWords made) rfl (by decide) 20 (by decide)

end Cuckoo.Table

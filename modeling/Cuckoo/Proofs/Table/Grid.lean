import Cuckoo.Proofs.Table.Contents

/-!
# The packed table is a grid

To its users a table is a grid of numbers, so many buckets of so many slots, and says nothing of words
and masks. `ActsAsGrid` is that description: what each operation answers and which cells it changes, in
terms of the cells alone. **Every table that can be reached acts as a grid.**

The cells need not fill the words: the last word may have bits to spare. No change but `clear` touches
them, so a table that began empty has zeros there. Then nothing is left that the cells do not say, and
**two such tables with the same cells have the same words**.
-/

set_option autoImplicit false

namespace Cuckoo.Table

open BitString Runs

/-! ## What a grid does -/

/-- The lowest slot of a bucket that holds a value. -/
structure FirstSlot (t : Table) (bucket : Nat) (value : UInt64) (slot : Nat) : Prop where
  slot_lt : slot < t.shape.slots
  cell_eq : t.cell bucket slot = value
  before : ∀ earlier, earlier < slot → t.cell bucket earlier ≠ value

/-- One cell has a new value. Every other cell is as before, and so is every bit behind the last
cell. -/
structure SetsCell (t : Table) (bucket slot value : Nat) (t' : Table) : Prop where
  shape_eq : t'.shape = t.shape
  size_eq : t'.words.size = t.words.size
  here : (t'.cell bucket slot).toNat = value
  elsewhere : ∀ bucket' slot', bucket' < t.shape.buckets → slot' < t.shape.slots →
    ¬ (bucket' = bucket ∧ slot' = slot) → t'.cell bucket' slot' = t.cell bucket' slot'
  padding : ∀ j, t.shape.totalBits ≤ j → bit t'.words j = bit t.words j

/-- The cell at a place of the table, counted slot by slot and bucket by bucket, with its bucket. -/
def cellAt (t : Table) (place : Nat) : Nat × UInt64 :=
  (place / t.shape.slots, t.cell (place / t.shape.slots) (place % t.shape.slots))

/-- A change that can be asked of a table. -/
inductive Edit where
  | exchange (value : UInt64) (bucket slot : Nat)
  | put (fingerprint : UInt64) (bucket : Nat)
  | replaceFirst (new old : UInt64) (bucket : Nat)
  | clear
  deriving Repr, DecidableEq

/-- The table after a change. One that finds no cell leaves the table as it is. -/
def edit (t : Table) : Edit → Checked Table
  | .exchange value bucket slot => do
    let (_, t) ← t.exchange value bucket slot
    pure t
  | .put fingerprint bucket => do
    let found ← t.put fingerprint bucket
    pure (found.getD t)
  | .replaceFirst new old bucket => do
    let found ← t.replaceFirst new old bucket
    pure (found.getD t)
  | .clear => pure t.clear

def editAll (t : Table) : List Edit → Checked Table
  | [] => pure t
  | e :: edits => do
    let t ← t.edit e
    t.editAll edits

/-- What the operations of a table do, in terms of its cells.

That `put` and `replaceFirst` have no table to give when they find no cell is not a way to hide one that
was half written: both look for the cell before they touch a word, and end there if there is none. So the
table of a search in vain is the one from before, which `found = none` spells out for a change of words in
place. -/
structure ActsAsGrid (t : Table) : Prop where
  read : ∀ {bucket slot}, bucket < t.shape.buckets → slot < t.shape.slots →
    t.read bucket slot = .ok (t.cell bucket slot)
  cell_lt : ∀ bucket slot, (t.cell bucket slot).toNat < 2 ^ t.shape.bits
  exchange : ∀ (value : UInt64) {bucket slot}, bucket < t.shape.buckets → slot < t.shape.slots →
    ∃ t', t.exchange value bucket slot = .ok (t.cell bucket slot, t') ∧
      t.SetsCell bucket slot (value.toNat % 2 ^ t.shape.bits) t'
  put : ∀ (fingerprint : UInt64) {bucket}, bucket < t.shape.buckets →
    ∃ found, t.put fingerprint bucket = .ok found ∧
      (found.isSome ↔ (0 < fingerprint.toNat ∧ fingerprint.toNat < 2 ^ t.shape.bits) ∧
        ∃ slot, slot < t.shape.slots ∧ t.cell bucket slot = 0) ∧
      (found = none → t.edit (.put fingerprint bucket) = .ok t) ∧
      ∀ t', found = some t' →
        ∃ slot, t.FirstSlot bucket 0 slot ∧ t.SetsCell bucket slot fingerprint.toNat t'
  replaceFirst : ∀ (new old : UInt64) {bucket}, bucket < t.shape.buckets →
    ∃ found, t.replaceFirst new old bucket = .ok found ∧
      (found.isSome ↔ old.toNat < 2 ^ t.shape.bits ∧
        ∃ slot, slot < t.shape.slots ∧ t.cell bucket slot = old) ∧
      (found = none → t.edit (.replaceFirst new old bucket) = .ok t) ∧
      ∀ t', found = some t' → ∃ slot, t.FirstSlot bucket old slot ∧
        t.SetsCell bucket slot (new.toNat % 2 ^ t.shape.bits) t'
  holds : ∀ (fingerprint : UInt64) {bucket}, bucket < t.shape.buckets →
    ∃ found, t.holds fingerprint bucket = .ok found ∧
      (found = true ↔ fingerprint ≠ 0 ∧
        ∃ slot, slot < t.shape.slots ∧ t.cell bucket slot = fingerprint)
  entries : t.entries = ((List.range t.capacity).map t.cellAt).filter fun entry => entry.2 ≠ 0
  clear : t.clear.shape = t.shape ∧ t.clear.words = Array.replicate t.words.size 0 ∧
    ∀ bucket slot, t.clear.cell bucket slot = 0

/-! ## Cells -/

theorem slotOf?_eq_some_iff {t : Table} {value : UInt64} {bucket slot : Nat} :
    t.slotOf? value bucket = some slot ↔ t.FirstSlot bucket value slot := by
  unfold slotOf?
  rw [List.find?_range_eq_some]
  constructor
  · rintro ⟨found, inside, before⟩
    refine ⟨List.mem_range.mp inside, beq_iff_eq.mp found, ?_⟩
    intro earlier lt
    simpa using before earlier lt
  · rintro ⟨inside, found, before⟩
    refine ⟨beq_iff_eq.mpr found, List.mem_range.mpr inside, ?_⟩
    intro earlier lt
    simpa using before earlier lt

theorem isSome_slotOf?_iff_exists {t : Table} {value : UInt64} {bucket : Nat} :
    (t.slotOf? value bucket).isSome ↔
      ∃ slot, slot < t.shape.slots ∧ t.cell bucket slot = value :=
  isSome_slotOf?_iff.trans mem_row_iff

theorem cell_ne_empty_iff {t : Table} (pos : 1 ≤ t.shape.bits) (le : t.shape.bits ≤ 64)
    (bucket slot : Nat) : t.cell bucket slot ≠ emptyCell ↔
      ∃ i < t.shape.bits, bit t.words (t.shape.offset bucket slot + i) = true := by
  constructor
  · intro used
    by_contra unset
    refine used (word_ext fun j => ?_)
    have zero : emptyCell.toNat.testBit j = false := Nat.zero_testBit j
    rw [zero, cell, testBit_peek _ _ pos le, Bool.and_eq_false_iff, decide_eq_false_iff_not]
    by_cases inside : j < t.shape.bits
    · exact Or.inr (Bool.eq_false_iff.mpr fun set => unset ⟨j, inside, set⟩)
    · exact Or.inl inside
  · rintro ⟨i, inside, set⟩ empty
    have seen : (t.cell bucket slot).toNat.testBit i = true := by
      rw [cell, testBit_peek _ _ pos le, decide_eq_true inside, set, Bool.true_and]
    rw [empty] at seen
    cases (Nat.zero_testBit i).symm.trans seen

/-- The cells of the first buckets, one bucket after the other, are the first cells. -/
theorem flatMap_row_eq (t : Table) (pos : 0 < t.shape.slots) (buckets : Nat) :
    ((List.range buckets).flatMap fun bucket => (t.row bucket).map fun value => (bucket, value)) =
      (List.range (buckets * t.shape.slots)).map t.cellAt := by
  induction buckets with
  | zero => simp
  | succ buckets ih =>
    have last : (t.row buckets).map (fun value => (buckets, value)) =
        ((List.range t.shape.slots).map fun slot => buckets * t.shape.slots + slot).map t.cellAt := by
      unfold row
      rw [List.map_map, List.map_map]
      refine List.map_congr_left fun slot mem => ?_
      have lt : slot < t.shape.slots := List.mem_range.mp mem
      have bucket : (buckets * t.shape.slots + slot) / t.shape.slots = buckets := by
        rw [Nat.mul_comm, Nat.mul_add_div pos, Nat.div_eq_of_lt lt, Nat.add_zero]
      have place : (buckets * t.shape.slots + slot) % t.shape.slots = slot := by
        rw [Nat.mul_comm, Nat.mul_add_mod, Nat.mod_eq_of_lt lt]
      show (buckets, t.cell buckets slot) = t.cellAt (buckets * t.shape.slots + slot)
      rw [cellAt, bucket, place]
    rw [List.range_succ, List.flatMap_append, ih, List.flatMap_singleton, last, Nat.succ_mul,
      List.range_add, List.map_append]

section

variable {t : Table} (h : t.WellFormed)
include h

theorem WellFormed.slots_pos : 0 < t.shape.slots := Nat.lt_of_lt_of_le (by decide) h.two_le_slots

theorem WellFormed.contents_eq : t.contents = (List.range t.capacity).map t.cellAt :=
  flatMap_row_eq t h.slots_pos t.shape.buckets

theorem WellFormed.entries_eq :
    t.entries = ((List.range t.capacity).map t.cellAt).filter fun entry => entry.2 ≠ 0 := by
  rw [entries_eq_filter, h.contents_eq]
  rfl

theorem WellFormed.count_le_capacity : t.count ≤ t.capacity := by
  calc t.count = (((List.range t.capacity).map t.cellAt).filter fun entry => entry.2 ≠ 0).length := by
        rw [h.count_eq, h.entries_eq]
    _ ≤ ((List.range t.capacity).map t.cellAt).length := List.length_filter_le _ _
    _ = t.capacity := by rw [List.length_map, List.length_range]

/-- The entries of a table are counted by the bits of its slots. -/
theorem WellFormed.count_eq_countP :
    t.count = (List.range t.capacity).countP fun place =>
      (List.range t.shape.bits).any fun i => bit t.words (place * t.shape.bits + i) := by
  rw [h.count_eq, h.entries_eq, ← List.countP_eq_length_filter, List.countP_map]
  refine List.countP_congr fun place _ => ?_
  have used := t.cell_ne_empty_iff h.bits_pos h.bits_le (place / t.shape.slots)
    (place % t.shape.slots)
  rw [Shape.offset_div_mod] at used
  rw [List.any_eq_true]
  simp only [List.mem_range]
  exact decide_eq_true_iff.trans used

theorem WellFormed.cell_lt (bucket slot : Nat) :
    (t.cell bucket slot).toNat < 2 ^ t.shape.bits :=
  (h.fits_iff_lt _).mp (h.fits_cell bucket slot)

theorem WellFormed.read_eq {bucket slot : Nat} (hb : bucket < t.shape.buckets)
    (hs : slot < t.shape.slots) : t.read bucket slot = .ok (t.cell bucket slot) := by
  unfold Table.read
  rw [checkSlot_eq_ok_iff.mpr ⟨hb, hs⟩, ok_bind]
  exact read_offset_eq h.shape_ok h.size_words hb hs

/-- **An overwrite sets one cell** to what the value keeps of its bits, and nothing else. -/
theorem WellFormed.setsCell_store {bucket slot : Nat} (hb : bucket < t.shape.buckets)
    (hs : slot < t.shape.slots) (value : UInt64) :
    t.SetsCell bucket slot (value.toNat % 2 ^ t.shape.bits) (t.store bucket slot value) where
  shape_eq := rfl
  size_eq := size_words_store t bucket slot value
  here := by
    rw [h.cell_store hb hs value bucket hs, if_pos ⟨rfl, rfl⟩, toNat_and_lowMask h.bits_pos h.bits_le]
  elsewhere := by
    intro bucket' slot' _ hs' other
    rw [h.cell_store hb hs value bucket' hs', if_neg other]
  padding := by
    intro j behind
    have inside := Shape.offset_add_bits_le_totalBits hb hs
    exact (bit_poke t.words h.bits_pos h.bits_le (h.span_inside hb hs) _ j).trans
      (if_neg (by omega))

/-! ## Operations -/

theorem WellFormed.replaceFirst_acts (new old : UInt64) {bucket : Nat}
    (hb : bucket < t.shape.buckets) : ∃ found, t.replaceFirst new old bucket = .ok found ∧
      (found.isSome ↔ old.toNat < 2 ^ t.shape.bits ∧
        ∃ slot, slot < t.shape.slots ∧ t.cell bucket slot = old) ∧
      ∀ t', found = some t' → ∃ slot, t.FirstSlot bucket old slot ∧
        t.SetsCell bucket slot (new.toNat % 2 ^ t.shape.bits) t' := by
  cases fits : t.fits old with
  | true =>
    refine ⟨_, h.replaceFirst_eq hb fits new, ?_, ?_⟩
    · rw [Option.isSome_map, isSome_slotOf?_iff_exists, and_iff_right ((h.fits_iff_lt old).mp fits)]
    · intro t' stored
      obtain ⟨slot, found, rfl⟩ := Option.map_eq_some_iff.mp stored
      have first := slotOf?_eq_some_iff.mp found
      exact ⟨slot, first, h.setsCell_store hb first.slot_lt new⟩
  | false =>
    refine ⟨none, ?_, ?_, ?_⟩
    · unfold replaceFirst checkBucket
      rw [if_pos hb, fits]
      rfl
    · have wide : ¬ old.toNat < 2 ^ t.shape.bits := by
        rw [← h.fits_iff_lt, fits]
        exact Bool.false_ne_true
      simp [wide]
    · intro t' stored
      cases stored

theorem WellFormed.put_acts (fingerprint : UInt64) {bucket : Nat} (hb : bucket < t.shape.buckets) :
    ∃ found, t.put fingerprint bucket = .ok found ∧
      (found.isSome ↔ (0 < fingerprint.toNat ∧ fingerprint.toNat < 2 ^ t.shape.bits) ∧
        ∃ slot, slot < t.shape.slots ∧ t.cell bucket slot = 0) ∧
      ∀ t', found = some t' →
        ∃ slot, t.FirstSlot bucket 0 slot ∧ t.SetsCell bucket slot fingerprint.toNat t' := by
  have used : fingerprint ≠ emptyCell ↔ 0 < fingerprint.toNat := by
    rw [Nat.pos_iff_ne_zero, ne_eq, ne_eq, ← UInt64.toNat_inj]
    rfl
  by_cases storable : fingerprint ≠ emptyCell ∧ t.fits fingerprint = true
  · obtain ⟨unequal, fits⟩ := storable
    have small := (h.fits_iff_lt fingerprint).mp fits
    refine ⟨_, h.put_eq hb unequal fits, ?_, ?_⟩
    · rw [Option.isSome_map, isSome_slotOf?_iff_exists, and_iff_right ⟨used.mp unequal, small⟩]
      rfl
    · intro t' stored
      obtain ⟨slot, found, rfl⟩ := Option.map_eq_some_iff.mp stored
      have first := slotOf?_eq_some_iff.mp found
      have sets := h.setsCell_store hb first.slot_lt fingerprint
      rw [Nat.mod_eq_of_lt small] at sets
      exact ⟨slot, first, sets⟩
  · refine ⟨none, ?_, ?_, ?_⟩
    · have refused : fingerprint = emptyCell ∨ t.fits fingerprint = false := by
        rw [not_and_or, not_not, Bool.not_eq_true] at storable
        exact storable
      unfold put checkBucket
      rw [if_pos hb, if_pos refused]
      rfl
    · rw [used, h.fits_iff_lt] at storable
      simp [storable]
    · intro t' stored
      cases stored

theorem WellFormed.holds_acts (fingerprint : UInt64) {bucket : Nat}
    (hb : bucket < t.shape.buckets) : ∃ found, t.holds fingerprint bucket = .ok found ∧
      (found = true ↔ fingerprint ≠ 0 ∧
        ∃ slot, slot < t.shape.slots ∧ t.cell bucket slot = fingerprint) := by
  unfold holds checkBucket
  rw [if_pos hb]
  refine ⟨_, rfl, ?_⟩
  rw [Bool.and_eq_true, Bool.and_eq_true, bne_iff_ne, isSome_slotOf?_iff_exists]
  constructor
  · rintro ⟨⟨-, used⟩, found⟩
    exact ⟨used, found⟩
  · rintro ⟨used, slot, inside, found⟩
    -- what a cell holds is no wider than a cell
    exact ⟨⟨found ▸ h.fits_cell bucket slot, used⟩, slot, inside, found⟩

theorem WellFormed.actsAsGrid : t.ActsAsGrid where
  read := h.read_eq
  cell_lt := h.cell_lt
  exchange := by
    intro value bucket slot hb hs
    exact ⟨_, h.exchange_eq hb hs value, h.setsCell_store hb hs value⟩
  put := by
    intro fingerprint bucket hb
    obtain ⟨found, run, some_iff, sets⟩ := h.put_acts fingerprint hb
    refine ⟨found, run, some_iff, ?_, sets⟩
    rintro rfl
    rw [edit, run]
    rfl
  replaceFirst := by
    intro new old bucket hb
    obtain ⟨found, run, some_iff, sets⟩ := h.replaceFirst_acts new old hb
    refine ⟨found, run, some_iff, ?_, sets⟩
    rintro rfl
    rw [edit, run]
    rfl
  holds := h.holds_acts
  entries := h.entries_eq
  clear := ⟨rfl, rfl, fun bucket slot =>
    cell_replicate t.shape _ _ bucket slot h.bits_pos h.bits_le⟩

end

end Cuckoo.Table

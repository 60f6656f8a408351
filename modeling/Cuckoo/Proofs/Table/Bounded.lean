import Cuckoo.Proofs.Table.Contents

/-!
# A table from words, in bounded numbers

The dimensions of a table that is made from words are up to whoever wrote them, and so are their
products. Here such a table is made in numbers of 64 bits: a product or a sum that is out of range
leaves the run stuck, and so do a place outside the table and a word that is not there.

**The run is never stuck** (`ofWords?_eq`), whatever the dimensions are: those whose size is out of
range are refused by name before any slot is looked at, and below that size every offset is in range.
-/

set_option autoImplicit false

namespace Cuckoo

open BitString Runs

/-- A fallible run in bounded numbers. `none` is a run that is stuck. -/
abbrev Bounded (α : Type) : Type := ExceptT Failure Option α

/-- A run that has no numbers to bound. -/
def Bounded.ofExcept {α : Type} (x : Except Failure α) : Bounded α := ExceptT.mk (some x)

theorem Bounded.ofExcept_bind {α β : Type} {x : Except Failure α} {f : α → Bounded β}
    {g : α → Except Failure β} (h : ∀ a, x = .ok a → f a = ofExcept (g a)) :
    (ofExcept x >>= f) = ofExcept (x >>= g) := by
  cases x with
  | error cause => rfl
  | ok a => exact h a rfl

namespace Shape

/-- The number of words that hold the slots, if both products are in range. -/
def words? (s : Shape) : Option Nat := do
  let capacity ← word? (s.buckets * s.slots)
  let total ← word? (capacity * s.bits)
  pure ((total + 63) / 64)

/-- The number of words of dimensions that are allowed. -/
def required (s : Shape) : Except Failure Nat := do
  if s.buckets = 0 then throw .noBuckets
  if s.slots < minSlots then throw (.tooFewSlots s.slots)
  if s.bits < 1 ∨ 64 < s.bits then throw (.badEntryWidth s.bits)
  match s.words? with
  | some words => pure words
  | none => throw (.tooLarge s.buckets s.slots s.bits)

/-- Where a slot begins, if the numbers on the way are in range. -/
def offset? (s : Shape) (bucket slot : Nat) : Option Nat := do
  let row ← word? (bucket * s.slots)
  let place ← word? (row + slot)
  word? (place * s.bits)

/-- A product that is out of range stays there, because no factor is zero. -/
theorem words?_eq {s : Shape} (pos : 1 ≤ s.bits) :
    s.words? = if UInt64.size ≤ s.totalBits then none else some s.words := by
  have grows : s.capacity ≤ s.totalBits := Nat.le_mul_of_pos_right _ pos
  unfold words?
  rw [word?_bind, word?_bind]
  show (if s.capacity < _ then if s.totalBits < _ then some s.words else none else none) = _
  by_cases small : s.totalBits < UInt64.size
  · rw [if_pos (Nat.lt_of_le_of_lt grows small), if_pos small, if_neg (Nat.not_le.mpr small)]
  · rw [if_neg small, ite_self, if_pos (Nat.not_lt.mp small)]

/-- **Checking with bounded products comes to the same as checking the size itself.** -/
theorem required_eq (s : Shape) : s.required = s.check >>= fun _ => pure s.words := by
  unfold required check
  by_cases buckets : s.buckets = 0
  · rw [if_pos buckets, if_pos buckets]
    rfl
  rw [if_neg buckets, if_neg buckets]
  by_cases slots : s.slots < minSlots
  · rw [if_pos slots, if_pos slots]
    rfl
  rw [if_neg slots, if_neg slots]
  by_cases bits : s.bits < 1 ∨ 64 < s.bits
  · rw [if_pos bits, if_pos bits]
    rfl
  rw [if_neg bits, if_neg bits, words?_eq (by omega)]
  by_cases large : UInt64.size ≤ s.totalBits
  · rw [if_pos large, if_pos large]
    rfl
  · rw [if_neg large, if_neg large]
    rfl

section

variable {s : Shape} (ok : s.check = .ok ()) {bucket slot : Nat} (hb : bucket < s.buckets)
  (hs : slot < s.slots)
include ok hb hs

theorem offset_lt : s.offset bucket slot < UInt64.size := by
  obtain ⟨-, -, pos, -, size⟩ := check_eq_ok_iff.mp ok
  have inside := offset_add_bits_le_totalBits hb hs
  unfold UInt64.size
  omega

theorem offset?_eq : s.offset? bucket slot = some (s.offset bucket slot) := by
  have pos := (check_eq_ok_iff.mp ok).2.2.1
  have offset := offset_lt ok hb hs
  have place : bucket * s.slots + slot < UInt64.size :=
    Nat.lt_of_le_of_lt (Nat.le_mul_of_pos_right _ pos) offset
  unfold offset?
  rw [word?_bind, if_pos (Nat.lt_of_le_of_lt (Nat.le_add_right _ slot) place), word?_bind,
    if_pos place]
  exact word?_eq offset

end

end Shape

namespace Table

/-- The cell at a place, if there is such a place and its words are there. -/
def cell? (t : Table) (bucket slot : Nat) : Option UInt64 := do
  (t.checkSlot bucket slot).toOption
  let offset ← t.shape.offset? bucket slot
  (BitString.read t.words offset t.shape.bits).toOption

/-- All fingerprints with their buckets, in the order of the cells, as far as every cell is there. -/
def entries? (t : Table) : Option (List (Nat × UInt64)) := do
  let rows ← (List.range t.shape.buckets).mapM fun bucket => do
    let row ← (List.range t.shape.slots).mapM (t.cell? bucket)
    pure ((row.filter (· ≠ emptyCell)).map fun fp => (bucket, fp))
  pure rows.flatten

/-- The table with the given words, made in bounded numbers. -/
def ofWords? (shape : Shape) (words : Array UInt64) (count : Nat) : Bounded Table := do
  let required ← .ofExcept (shape.required.mapError .inData)
  if words.size ≠ required then throw (.wordCount required words.size)
  let found ← ExceptT.lift (Table.mk shape words 0).entries?
  if found.length ≠ count then throw (.entryCount found.length count)
  pure ⟨shape, words, count⟩

section

variable {t : Table} (ok : t.shape.check = .ok ()) (size : t.words.size = t.shape.words)
include ok size

theorem cell?_eq {bucket slot : Nat} (hb : bucket < t.shape.buckets) (hs : slot < t.shape.slots) :
    t.cell? bucket slot = some (t.cell bucket slot) := by
  unfold cell?
  rw [checkSlot_eq_ok_iff.mpr ⟨hb, hs⟩, Shape.offset?_eq ok hb hs]
  show (BitString.read _ _ _).toOption = _
  rw [read_offset_eq ok size hb hs]
  rfl

theorem entries?_eq : t.entries? = some t.entries := by
  have row : ∀ bucket ∈ List.range t.shape.buckets,
      (List.range t.shape.slots).mapM (t.cell? bucket) = some (t.row bucket) := by
    intro bucket mem
    exact mapM_eq_some_map fun slot inside =>
      cell?_eq ok size (List.mem_range.mp mem) (List.mem_range.mp inside)
  unfold entries?
  rw [mapM_eq_some_map fun bucket mem => by rw [row bucket mem]; rfl]
  rfl

end

/-- **Making a table from words is never stuck**, and comes to what it comes to in unbounded numbers. -/
theorem ofWords?_eq (shape : Shape) (words : Array UInt64) (count : Nat) :
    ofWords? shape words count = .ofExcept (ofWords shape words count) := by
  unfold ofWords? ofWords
  rw [Shape.required_eq]
  cases ok : shape.check with
  | error cause => rfl
  | ok _ =>
    show (if words.size ≠ shape.words then _ else _ : Bounded Table) =
      .ofExcept (if words.size ≠ shape.words then _ else _)
    by_cases size : words.size ≠ shape.words
    · rw [if_pos size, if_pos size]
      rfl
    · rw [if_neg size, if_neg size]
      rw [@entries?_eq (Table.mk shape words 0) ok (not_ne_iff.mp size)]
      show (if (Table.mk shape words 0).entries.length ≠ count then _ else _ : Bounded Table) = _
      by_cases found : (Table.mk shape words 0).entries.length ≠ count
      · rw [if_pos found, if_pos found]
        rfl
      · rw [if_neg found, if_neg found]
        rfl

end Table

end Cuckoo

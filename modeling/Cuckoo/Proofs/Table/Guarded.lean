import Cuckoo.Proofs.BitString.Bounded
import Cuckoo.Proofs.Table.Bounded
import Cuckoo.Proofs.Table.Edits

/-!
# Reading and changing a table, in bounded numbers

The operations of a table with every number on the way in the range of its type and every word taken
from the array by a checked index. A product or a sum that is out of range, a shift by too much, a count
that would sink below zero, a place outside the table and a word that is not there leave the run stuck.

**On a well formed table no operation is stuck** unless it is refused, which happens only outside the
table. What a change leaves behind is a well formed table of the same shape, so the next one is not stuck
either.
-/

set_option autoImplicit false

namespace Cuckoo.Table

open BitString Runs

/-! ## Reading -/

/-- The cell at a place, read word by word. -/
def entry? (t : Table) (bucket slot : Nat) : Option UInt64 := do
  (t.checkSlot bucket slot).toOption
  let offset ← t.shape.offset? bucket slot
  BitString.read? t.words offset t.shape.bits

def fits? (t : Table) (value : UInt64) : Option Bool := do
  let mask ← lowMask? t.shape.bits
  pure (value &&& ~~~mask == 0)

/-- The first slot of a bucket that holds a value, looking at one slot after the other. -/
def firstSlot? (t : Table) (value : UInt64) (bucket : Nat) : Option (Option Nat) :=
  (List.range t.shape.slots).findM? fun slot => do pure ((← t.entry? bucket slot) == value)

def holds? (t : Table) (fingerprint : UInt64) (bucket : Nat) : Option Bool := do
  (t.checkBucket bucket).toOption
  if ← t.fits? fingerprint then
    if fingerprint = emptyCell then pure false
    else pure (← t.firstSlot? fingerprint bucket).isSome
  else pure false

/-- How full the table is. The capacity is computed for it. -/
def load? (t : Table) : Option Load := do
  let capacity ← word? (t.shape.buckets * t.shape.slots)
  pure ⟨t.count, capacity⟩

/-- The fingerprints in a bucket, in ascending order. -/
def sortedResidents? (t : Table) (bucket : Nat) : Option (List UInt64) := do
  let row ← (List.range t.shape.slots).mapM (t.entry? bucket)
  pure ((row.filter (· ≠ emptyCell)).mergeSort fun a b => decide (a ≤ b))

def sameContents? (t u : Table) : Option Bool :=
  if t.compatible u && t.count == u.count then
    (List.range t.shape.buckets).allM fun bucket => do
      let mine ← t.sortedResidents? bucket
      let theirs ← u.sortedResidents? bucket
      pure (mine == theirs)
  else pure false

/-! ## Changing -/

def recount? (count : Nat) (old new : UInt64) : Option Nat :=
  if old = emptyCell then (if new = emptyCell then some count else word? (count + 1))
  else if new = emptyCell then sub? count 1 else some count

def exchange? (t : Table) (value : UInt64) (bucket slot : Nat) : Option (UInt64 × Table) := do
  (t.checkSlot bucket slot).toOption
  let offset ← t.shape.offset? bucket slot
  let mask ← lowMask? t.shape.bits
  let value := value &&& mask
  let (old, words) ← BitString.write? value t.words offset t.shape.bits
  let count ← recount? t.count old value
  pure (old, { t with words, count })

def replaceFirst? (t : Table) (new old : UInt64) (bucket : Nat) : Option (Option Table) := do
  (t.checkBucket bucket).toOption
  if ← t.fits? old then
    match ← t.firstSlot? old bucket with
    | some slot =>
      let (_, t) ← t.exchange? new bucket slot
      pure (some t)
    | none => pure none
  else pure none

def put? (t : Table) (fingerprint : UInt64) (bucket : Nat) : Option (Option Table) := do
  (t.checkBucket bucket).toOption
  if fingerprint = emptyCell then pure none
  else if ← t.fits? fingerprint then t.replaceFirst? fingerprint emptyCell bucket
  else pure none

/-- Counting is not stuck if the new count is in range and an occupied cell has been counted. -/
theorem recount?_eq {count : Nat} {old new : UInt64} (small : recount count old new < UInt64.size)
    (counted : old ≠ emptyCell → 0 < count) :
    recount? count old new = some (recount count old new) := by
  unfold recount at small ⊢
  unfold recount?
  by_cases free : old = emptyCell <;> by_cases left : new = emptyCell <;>
    simp only [free, left, if_true, if_false] at small ⊢
  · exact word?_eq small
  · exact sub?_eq (counted free)

/-- What any change leaves behind. -/
structure Follows (t u : Table) : Prop where
  wellFormed : u.WellFormed
  shape_eq : u.shape = t.shape

section

variable {t : Table} (h : t.WellFormed)
include h

theorem WellFormed.follows_refl : t.Follows t := ⟨h, rfl⟩

theorem WellFormed.capacity_lt : t.shape.buckets * t.shape.slots < UInt64.size :=
  Nat.lt_of_le_of_lt (Nat.le_mul_of_pos_right _ h.bits_pos) h.totalBits_lt

theorem WellFormed.slots_lt : t.shape.slots < UInt64.size :=
  Nat.lt_of_le_of_lt (Nat.le_mul_of_pos_left _ h.buckets_pos) h.capacity_lt

theorem WellFormed.entry?_eq {bucket slot : Nat} (hb : bucket < t.shape.buckets)
    (hs : slot < t.shape.slots) : t.entry? bucket slot = some (t.cell bucket slot) := by
  have same : t.entry? bucket slot = t.cell? bucket slot := by
    unfold entry? cell?
    simp only [read?_eq]
  rw [same, cell?_eq h.shape_ok h.size_words hb hs]

theorem WellFormed.fits?_eq (value : UInt64) : t.fits? value = some (t.fits value) := by
  unfold fits?
  rw [lowMask?_eq h.bits_pos h.bits_le]
  rfl

theorem WellFormed.firstSlot?_eq (value : UInt64) {bucket : Nat} (hb : bucket < t.shape.buckets) :
    t.firstSlot? value bucket = some (t.slotOf? value bucket) := by
  refine findM?_eq_some_find? fun slot mem => ?_
  rw [h.entry?_eq hb (List.mem_range.mp mem)]
  rfl

theorem WellFormed.sortedResidents?_eq {bucket : Nat} (hb : bucket < t.shape.buckets) :
    t.sortedResidents? bucket = some (t.sortedResidents bucket) := by
  unfold sortedResidents?
  rw [mapM_eq_some_map fun slot mem => h.entry?_eq hb (List.mem_range.mp mem)]
  rfl

theorem WellFormed.sameContents?_eq {u : Table} (h' : u.WellFormed) :
    t.sameContents? u = some (t == u) := by
  show _ = some (t.sameContents u)
  unfold sameContents? sameContents
  cases same : t.compatible u && t.count == u.count with
  | false => rfl
  | true =>
    have shape : u.shape = t.shape := (beq_iff_eq.mp (Bool.and_eq_true_iff.mp same).1).symm
    refine allM_eq_some_all fun bucket mem => ?_
    have hb := List.mem_range.mp mem
    rw [h.sortedResidents?_eq hb, h'.sortedResidents?_eq (shape ▸ hb)]
    rfl

theorem WellFormed.load?_eq : t.load? = some t.load := by
  unfold load?
  rw [word?_eq h.capacity_lt]
  rfl

theorem WellFormed.exchange?_eq {bucket slot : Nat} (hb : bucket < t.shape.buckets)
    (hs : slot < t.shape.slots) (value : UInt64) :
    t.exchange? value bucket slot = some (t.cell bucket slot, t.store bucket slot value) := by
  -- no more cells are in use than there are
  have small : (t.store bucket slot value).count < UInt64.size :=
    Nat.lt_of_le_of_lt (h.store hb hs value).count_le_capacity h.capacity_lt
  have span : checkSpan t.words (t.shape.offset bucket slot) t.shape.bits = .ok () :=
    checkSpan_eq_ok_iff.mpr ⟨h.bits_pos, h.bits_le, h.span_inside hb hs⟩
  unfold exchange?
  rw [checkSlot_eq_ok_iff.mpr ⟨hb, hs⟩, Shape.offset?_eq h.shape_ok hb hs,
    lowMask?_eq h.bits_pos h.bits_le]
  show ((BitString.write? _ _ _ _) >>= _) = _
  rw [write?_eq, BitString.write, span]
  show (recount? _ (t.cell bucket slot) _ >>= _) = _
  rw [recount?_eq small (h.counted hb hs)]
  rfl

/-! ## Keeping up -/

theorem WellFormed.keepsUp_exchange (value : UInt64) (bucket slot : Nat) :
    KeepsUp (t.exchange? value bucket slot) (t.exchange value bucket slot) fun next =>
      t.Follows next.2 ∧ bucket < t.shape.buckets := by
  rintro ⟨old, u⟩ run
  obtain ⟨hb, hs, rfl⟩ := h.exchange_cases run
  rw [h.exchange_eq hb hs] at run
  cases run
  exact ⟨h.exchange?_eq hb hs value, ⟨h.store hb hs value, rfl⟩, hb⟩

theorem WellFormed.keepsUp_replaceFirst (new old : UInt64) (bucket : Nat) :
    KeepsUp (t.replaceFirst? new old bucket) (t.replaceFirst new old bucket) fun found =>
      ∀ u, found = some u → t.Follows u := by
  unfold replaceFirst? replaceFirst
  refine (keepsUp_toOption _).bind fun _ checked => ?_
  have hb := checkBucket_eq_ok_iff.mp checked
  refine KeepsUp.after (h.fits?_eq old) (KeepsUp.ite (fun _ => ?_) fun _ => keepsUp_some nofun)
  refine KeepsUp.after (h.firstSlot?_eq old hb) ?_
  cases t.slotOf? old bucket with
  | none => exact keepsUp_some nofun
  | some slot =>
    refine (h.keepsUp_exchange new bucket slot).bind fun (_, u) after => keepsUp_some fun v same => ?_
    cases same
    exact after.1

theorem WellFormed.keepsUp_put (fingerprint : UInt64) (bucket : Nat) :
    KeepsUp (t.put? fingerprint bucket) (t.put fingerprint bucket) fun found =>
      ∀ u, found = some u → t.Follows u := by
  unfold put? put
  refine (keepsUp_toOption _).bind fun _ _ => ?_
  by_cases none_left : fingerprint = emptyCell
  · rw [if_pos none_left, if_pos (Or.inl none_left)]
    exact keepsUp_some nofun
  rw [if_neg none_left]
  refine KeepsUp.after (h.fits?_eq fingerprint) ?_
  cases fits : t.fits fingerprint with
  | false =>
    rw [if_pos (Or.inr rfl)]
    exact keepsUp_some nofun
  | true =>
    have storable : ¬ (fingerprint = emptyCell ∨ true = false) := not_or.mpr ⟨none_left, nofun⟩
    rw [if_neg storable]
    exact h.keepsUp_replaceFirst fingerprint emptyCell bucket

theorem WellFormed.keepsUp_holds (fingerprint : UInt64) (bucket : Nat) :
    KeepsUp (t.holds? fingerprint bucket) (t.holds fingerprint bucket) fun _ => True := by
  unfold holds? holds
  refine (keepsUp_toOption _).bind fun _ checked => ?_
  have hb := checkBucket_eq_ok_iff.mp checked
  refine KeepsUp.after (h.fits?_eq fingerprint) ?_
  cases t.fits fingerprint with
  | false => exact keepsUp_some trivial
  | true =>
    by_cases none_left : fingerprint = emptyCell
    · rw [none_left]
      exact keepsUp_some trivial
    · rw [if_neg none_left, bne_iff_ne.mpr none_left]
      exact KeepsUp.after (h.firstSlot?_eq fingerprint hb) (keepsUp_some trivial)

end

end Cuckoo.Table

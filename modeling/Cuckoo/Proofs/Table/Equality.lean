import Cuckoo.Proofs.Table.Alike
import Cuckoo.Proofs.Table.Tally

/-!
# What equality of tables sees

Equality of tables sees the dimensions and how often each fingerprint is in each bucket, and nothing
else: not the order of the slots, not where the empty ones are, and no bit behind the last cell. So it
is an equivalence.

The comparison runs through the buckets with two buffers, one for each table. They are made once, and
filled and sorted again for each bucket. The loop is written out here, for any way to sort in place.
**Whatever the buffers held before, its answer is the same** (`comparedBy_eq`), and it would be the
same if the counts were not compared first (`WellFormed.sameFrom_eq`): that only saves the loop.
-/

set_option autoImplicit false

namespace Cuckoo.Table

open BitString Runs

/-- The number of slots of a bucket that hold a value. -/
def slotsWith (t : Table) (value : UInt64) (bucket : Nat) : Nat :=
  (List.range t.shape.slots).countP fun slot => t.cell bucket slot = value

/-- Two tables have the same dimensions, and in each bucket as many copies of each fingerprint. -/
structure SameBuckets (t u : Table) : Prop where
  buckets_eq : t.shape.buckets = u.shape.buckets
  slots_eq : t.shape.slots = u.shape.slots
  bits_eq : t.shape.bits = u.shape.bits
  slotsWith_eq : ∀ bucket < t.shape.buckets, ∀ value : UInt64, value ≠ 0 →
    t.slotsWith value bucket = u.slotsWith value bucket

/-! ## The loop over the buckets -/

/-- Sorting in place puts numbers into ascending order. Equal ones need not keep theirs. -/
structure Sorts (sort : Array UInt64 → Array UInt64) : Prop where
  perm : ∀ buffer, (sort buffer).toList.Perm buffer.toList
  ascending : ∀ buffer, (sort buffer).toList.Pairwise (· ≤ ·)

/-- The buffers for the fingerprints of a bucket of either table. -/
structure Buffers where
  mine : Array UInt64
  theirs : Array UInt64

/-- Drops what a buffer holds, and sorts the fingerprints of a bucket in it. -/
def sortedInto (sort : Array UInt64 → Array UInt64) (t : Table) (bucket : Nat)
    (buffer : Array UInt64) : Array UInt64 :=
  sort (buffer.shrink 0 ++ t.residents bucket)

/-- Compares the tables bucket by bucket, up to the first that differs. -/
def sameFrom (sort : Array UInt64 → Array UInt64) (t u : Table) : List Nat → Buffers → Bool
  | [], _ => true
  | bucket :: buckets, buffers =>
    let mine := t.sortedInto sort bucket buffers.mine
    let theirs := u.sortedInto sort bucket buffers.theirs
    if mine == theirs then sameFrom sort t u buckets ⟨mine, theirs⟩ else false

def comparedBy (sort : Array UInt64 → Array UInt64) (t u : Table) (buffers : Buffers) : Bool :=
  if t.compatible u = false ∨ t.count ≠ u.count then false
  else sameFrom sort t u (List.range t.shape.buckets) buffers

section

variable {sort : Array UInt64 → Array UInt64} (sorts : Sorts sort)
include sorts

theorem toList_sortedInto (t : Table) (bucket : Nat) (buffer : Array UInt64) :
    (t.sortedInto sort bucket buffer).toList = t.sortedResidents bucket := by
  have filled : (buffer.shrink 0 ++ t.residents bucket).toList = t.residents bucket := by simp
  have perm := sorts.perm (buffer.shrink 0 ++ t.residents bucket)
  rw [filled] at perm
  exact eq_of_perm_of_ascending (perm.trans (t.sortedResidents_perm bucket).symm)
    (sorts.ascending _) (t.ascending_sortedResidents bucket)

theorem sameFrom_eq_all (t u : Table) : ∀ (buckets : List Nat) (buffers : Buffers),
    sameFrom sort t u buckets buffers =
      buckets.all fun bucket => t.sortedResidents bucket == u.sortedResidents bucket := by
  -- on the buckets, for all buffers: the next ones are those of this bucket
  intro buckets
  induction buckets with
  | nil => exact fun _ => rfl
  | cons bucket buckets ih =>
    intro buffers
    have same : (t.sortedInto sort bucket buffers.mine == u.sortedInto sort bucket buffers.theirs) =
        (t.sortedResidents bucket == u.sortedResidents bucket) := by
      rw [Bool.eq_iff_iff, beq_iff_eq, beq_iff_eq, ← toList_sortedInto sorts t bucket buffers.mine,
        ← toList_sortedInto sorts u bucket buffers.theirs, Array.toList_inj]
    rw [sameFrom, List.all_cons, same]
    cases t.sortedResidents bucket == u.sortedResidents bucket with
    | true => exact ih _
    | false => rfl

/-- **The buffers do not matter**, neither what they hold at first nor what is left in them from
bucket to bucket. -/
theorem comparedBy_eq (t u : Table) (buffers : Buffers) :
    t.comparedBy sort u buffers = (t == u) := by
  show _ = t.sameContents u
  unfold comparedBy sameContents
  cases t.compatible u with
  | false => rfl
  | true =>
    by_cases counts : t.count = u.count
    · rw [if_neg (by simp [counts]), sameFrom_eq_all sorts, counts, beq_self_eq_true]
      rfl
    · rw [if_pos (Or.inr counts), beq_eq_false_iff_ne.mpr counts]
      rfl

/-- On well-formed tables the loop alone decides: tables with different counts differ in a bucket. -/
theorem WellFormed.sameFrom_eq {t u : Table} (h : t.WellFormed) (h' : u.WellFormed)
    (buffers : Buffers) :
    (t.compatible u && t.sameFrom sort u (List.range t.shape.buckets) buffers) = (t == u) := by
  rw [Bool.eq_iff_iff, beq_iff_alike h h', Bool.and_eq_true, sameFrom_eq_all sorts, List.all_eq_true,
    alike_iff_residents, compatible, beq_iff_eq, eq_comm]
  simp only [beq_iff_eq, List.mem_range, sortedResidents_eq_iff]

end

/-! ## What is seen -/

theorem count_row_eq_slotsWith (t : Table) (value : UInt64) (bucket : Nat) :
    (t.row bucket).count value = t.slotsWith value bucket := by
  unfold row slotsWith
  rw [List.count, List.countP_map]
  refine List.countP_congr fun slot _ => ?_
  simp

theorem alike_iff_sameBuckets {t u : Table} : t.Alike u ↔ t.SameBuckets u := by
  have shapes : t.shape = u.shape ↔ t.shape.buckets = u.shape.buckets ∧
      t.shape.slots = u.shape.slots ∧ t.shape.bits = u.shape.bits := by
    cases t.shape
    cases u.shape
    simp
  have counted : ∀ (v : Table) (bucket : Nat) {value : UInt64}, value ≠ 0 →
      (v.residents bucket).count value = v.slotsWith value bucket := by
    intro v bucket value used
    rw [← count_row_eq_slotsWith]
    exact List.count_filter (decide_eq_true used)
  constructor
  · intro a
    obtain ⟨buckets, slots, bits⟩ := shapes.mp a.shape_eq.symm
    refine ⟨buckets, slots, bits, fun bucket hb value _ => ?_⟩
    rw [← count_row_eq_slotsWith, ← count_row_eq_slotsWith]
    exact (a.row_perm bucket hb).count_eq value
  · rintro ⟨buckets, slots, bits, same⟩
    refine alike_iff_residents.mpr ⟨(shapes.mpr ⟨buckets, slots, bits⟩).symm, fun bucket hb => ?_⟩
    rw [List.perm_iff_count]
    intro value
    by_cases used : value = 0
    · -- the empty value is in neither list
      rw [List.count_eq_zero.mpr, List.count_eq_zero.mpr] <;> simp [residents, used, emptyCell]
    · rw [counted t bucket used, counted u bucket used, same bucket hb value used]

theorem beq_iff_sameBuckets {t u : Table} (h : t.WellFormed) (h' : u.WellFormed) :
    (t == u) = true ↔ t.SameBuckets u :=
  (beq_iff_alike h h').trans alike_iff_sameBuckets

/-- Tables whose bits agree up to the last cell are alike, whatever is behind it. -/
theorem WellFormed.alike_of_bits {t u : Table} (h : t.WellFormed) (same : u.shape = t.shape)
    (bits : ∀ j < t.shape.totalBits, bit u.words j = bit t.words j) : t.Alike u := by
  have cells : ∀ bucket < t.shape.buckets, ∀ slot < t.shape.slots,
      u.cell bucket slot = t.cell bucket slot := by
    intro bucket hb slot hs
    have inside := Shape.offset_add_bits_le_totalBits hb hs
    unfold cell
    rw [same]
    apply word_ext
    intro j
    rw [testBit_peek _ _ h.bits_pos h.bits_le, testBit_peek _ _ h.bits_pos h.bits_le]
    by_cases low : j < t.shape.bits
    · rw [bits _ (by omega)]
    · rw [decide_eq_false low, Bool.false_and, Bool.false_and]
  refine ⟨same, fun bucket hb => List.Perm.of_eq ?_⟩
  unfold row
  rw [same]
  exact List.map_congr_left fun slot mem => (cells bucket hb slot (List.mem_range.mp mem)).symm

theorem Alike.symm {t u : Table} (a : t.Alike u) : u.Alike t :=
  ⟨a.shape_eq.symm, fun bucket hb => (a.row_perm bucket (a.shape_eq ▸ hb)).symm⟩

theorem Alike.trans {t u v : Table} (first : t.Alike u) (second : u.Alike v) : t.Alike v :=
  ⟨second.shape_eq.trans first.shape_eq, fun bucket hb =>
    (first.row_perm bucket hb).trans (second.row_perm bucket (first.shape_eq ▸ hb))⟩

/-- **Equality of tables is equality of what is in the buckets.** Of tables that can be reached, those
are equal that have the same dimensions and in each bucket the same number of copies of each
fingerprint. So equality is an equivalence, and does not see the order of the cells in a bucket, empty
ones included, or the bits behind the last cell. The loop that compares the buckets answers the same
with every way to sort and with every content of its buffers, also when the counts of the tables are
not looked at. -/
theorem equality_sees_buckets_only :
    (∀ t u, Reached t → Reached u → ((t == u) = true ↔ t.SameBuckets u)) ∧
    ((∀ t, Reached t → (t == t) = true) ∧
      (∀ t u, Reached t → Reached u → (t == u) = true → (u == t) = true) ∧
      ∀ t u v, Reached t → Reached u → Reached v → (t == u) = true → (u == v) = true →
        (t == v) = true) ∧
    (∀ t u, Reached t → Reached u → u.shape = t.shape →
      ((∀ bucket < t.shape.buckets, (t.row bucket).Perm (u.row bucket)) → (t == u) = true) ∧
      ((∀ j < t.shape.totalBits, bit u.words j = bit t.words j) → (t == u) = true)) ∧
    ∀ sort, Sorts sort → ∀ t u buffers, t.comparedBy sort u buffers = (t == u) ∧
      (Reached t → Reached u →
        (t.compatible u && t.sameFrom sort u (List.range t.shape.buckets) buffers) = (t == u)) := by
  refine ⟨?_, ⟨?_, ?_, ?_⟩, ?_, ?_⟩
  · intro t u reached reached'
    exact beq_iff_sameBuckets reached.wellFormed reached'.wellFormed
  · intro t reached
    exact (beq_iff_alike reached.wellFormed reached.wellFormed).mpr ⟨rfl, fun _ _ => .rfl⟩
  · intro t u reached reached' same
    have a := (beq_iff_alike reached.wellFormed reached'.wellFormed).mp same
    exact (beq_iff_alike reached'.wellFormed reached.wellFormed).mpr a.symm
  · intro t u v reached reached' reached'' first second
    have a := (beq_iff_alike reached.wellFormed reached'.wellFormed).mp first
    have b := (beq_iff_alike reached'.wellFormed reached''.wellFormed).mp second
    exact (beq_iff_alike reached.wellFormed reached''.wellFormed).mpr (a.trans b)
  · intro t u reached reached' shape
    have equal := beq_iff_alike reached.wellFormed reached'.wellFormed
    exact ⟨fun rows => equal.mpr ⟨shape, rows⟩,
      fun bits => equal.mpr (reached.wellFormed.alike_of_bits shape bits)⟩
  · intro sort sorts t u buffers
    exact ⟨comparedBy_eq sorts t u buffers, fun reached reached' =>
      reached.wellFormed.sameFrom_eq sorts reached'.wellFormed buffers⟩

/-- Sorting by merging, with the buffer as a list. -/
def mergeSorted (buffer : Array UInt64) : Array UInt64 :=
  (buffer.toList.mergeSort fun a b => decide (a ≤ b)).toArray

/-- The same two fingerprints in other slots, with a bit set behind the cells of the one table, and
buffers that hold something else. -/
theorem equal_in_other_slots :
    ∃ t u, Table.ofWords ⟨1, 3, 5⟩ #[0x2403] 2 = .ok t ∧
      Table.ofWords ⟨1, 3, 5⟩ #[0x100069] 2 = .ok u ∧
      t.row 0 = [3, 0, 9] ∧ u.row 0 = [9, 3, 0] ∧ (t == u) = true ∧ t.SameBuckets u ∧
      (u == t) = true ∧ t.comparedBy mergeSorted u ⟨#[7, 7, 7, 7], #[]⟩ = true := by
  obtain ⟨buckets, ⟨-, symm, -⟩, unseen, loops⟩ := equality_sees_buckets_only
  have made : Table.ofWords ⟨1, 3, 5⟩ #[0x2403] 2 = .ok ⟨⟨1, 3, 5⟩, #[0x2403], 2⟩ := rfl
  have made' : Table.ofWords ⟨1, 3, 5⟩ #[0x100069] 2 = .ok ⟨⟨1, 3, 5⟩, #[0x100069], 2⟩ := rfl
  have reached := Reached.ofWords made
  have reached' := Reached.ofWords made'
  have sorts : Sorts mergeSorted :=
    ⟨fun buffer => List.mergeSort_perm _ _, fun buffer => ascending_mergeSort _⟩
  have rows : ∀ bucket < 1, (Table.row ⟨⟨1, 3, 5⟩, #[0x2403], 2⟩ bucket).Perm
      (Table.row ⟨⟨1, 3, 5⟩, #[0x100069], 2⟩ bucket) := by decide
  have same := (unseen _ _ reached reached' rfl).1 rows
  exact ⟨_, _, made, made', rfl, rfl, same, (buckets _ _ reached reached').mp same,
    symm _ _ reached reached' same, ((loops _ sorts _ _ _).1).trans same⟩

end Cuckoo.Table

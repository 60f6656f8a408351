import Cuckoo.Proofs.Table.Contents

/-!
# Tables that differ in the order of their buckets

Equality of tables sorts the fingerprints of each bucket and compares the lists. What it decides is
that two tables are `Alike`: they have the same dimensions, and **each row of the one is a permutation
of the same row of the other**. Bits behind the last cell have no say in it.

A change looks for a value and takes the first cell that holds it. In alike tables these may be
different slots, but they are found in the same buckets, and after the change the rows are permutations
of each other again, since the two cells held the same value.
-/

set_option autoImplicit false

namespace Cuckoo.Table

open BitString

/-- Two tables have the same dimensions, and the same cells in each bucket up to their order. -/
structure Alike (t u : Table) : Prop where
  shape_eq : u.shape = t.shape
  row_perm : ∀ bucket < t.shape.buckets, (t.row bucket).Perm (u.row bucket)

/-- Overwrites a cell that holds `old` with `new`: the first one of the first of these buckets that has
one. -/
def replaceIn (t : Table) (new old : UInt64) (places : List Nat) : Option Table :=
  places.findSome? fun place => (t.slotOf? old place).map fun slot => t.store place slot new

/-! ## What equality decides -/

/-- Two ascending lists of the same numbers are the same list. -/
theorem eq_of_perm_of_ascending {l l' : List UInt64} (perm : l.Perm l')
    (ascending : l.Pairwise (· ≤ ·)) (ascending' : l'.Pairwise (· ≤ ·)) : l = l' :=
  perm.eq_of_pairwise (fun _ _ _ _ => UInt64.le_antisymm) ascending ascending'

theorem ascending_mergeSort (l : List UInt64) :
    (l.mergeSort fun a b => decide (a ≤ b)).Pairwise (· ≤ ·) := by
  have trans : ∀ a b c : UInt64, decide (a ≤ b) = true → decide (b ≤ c) = true →
      decide (a ≤ c) = true := fun a b c hab hbc =>
    decide_eq_true (UInt64.le_trans (of_decide_eq_true hab) (of_decide_eq_true hbc))
  have total : ∀ a b : UInt64, (decide (a ≤ b) || decide (b ≤ a)) = true := fun a b => by
    simpa using UInt64.le_total a b
  exact (List.pairwise_mergeSort trans total l).imp of_decide_eq_true

theorem sortedResidents_perm (t : Table) (bucket : Nat) :
    (t.sortedResidents bucket).Perm (t.residents bucket) := List.mergeSort_perm _ _

theorem ascending_sortedResidents (t : Table) (bucket : Nat) :
    (t.sortedResidents bucket).Pairwise (· ≤ ·) := ascending_mergeSort _

theorem sortedResidents_eq_iff {t u : Table} {bucket : Nat} :
    t.sortedResidents bucket = u.sortedResidents bucket ↔
      (t.residents bucket).Perm (u.residents bucket) := by
  have mine := t.sortedResidents_perm bucket
  have theirs := u.sortedResidents_perm bucket
  constructor
  · intro same
    rw [same] at mine
    exact mine.symm.trans theirs
  · intro perm
    exact eq_of_perm_of_ascending (mine.trans (perm.trans theirs.symm))
      (t.ascending_sortedResidents bucket) (u.ascending_sortedResidents bucket)

theorem count_emptyCell_row (t : Table) (bucket : Nat) :
    (t.row bucket).count emptyCell = t.shape.slots - (t.residents bucket).length := by
  have split := List.length_eq_countP_add_countP (· ≠ emptyCell) (l := t.row bucket)
  rw [length_row, List.countP_eq_length_filter] at split
  have free : (t.row bucket).count emptyCell =
      (t.row bucket).countP fun value => ¬ decide (value ≠ emptyCell) = true := by
    refine List.countP_congr fun value _ => ?_
    simp
  unfold residents
  omega

/-- Rows are determined, up to order, by the fingerprints in them: what is left is empty. -/
theorem row_perm_iff {t u : Table} (same : u.shape = t.shape) {bucket : Nat} :
    (t.row bucket).Perm (u.row bucket) ↔ (t.residents bucket).Perm (u.residents bucket) := by
  constructor
  · exact fun perm => perm.filter _
  · intro perm
    rw [List.perm_iff_count]
    intro value
    by_cases free : value = emptyCell
    · rw [free, count_emptyCell_row, count_emptyCell_row, perm.length_eq, same]
    · have counts := perm.count_eq value
      unfold residents at counts
      rwa [List.count_filter (by simpa using free), List.count_filter (by simpa using free)] at counts

theorem alike_iff_residents {t u : Table} : t.Alike u ↔ u.shape = t.shape ∧
    ∀ bucket < t.shape.buckets, (t.residents bucket).Perm (u.residents bucket) := by
  constructor
  · intro a
    exact ⟨a.shape_eq, fun bucket hb => (row_perm_iff a.shape_eq).mp (a.row_perm bucket hb)⟩
  · rintro ⟨same, perm⟩
    exact ⟨same, fun bucket hb => (row_perm_iff same).mpr (perm bucket hb)⟩

/-- Tables with the same entries, in whatever order, are alike. -/
theorem alike_of_entries_perm {t u : Table} (same : u.shape = t.shape)
    (perm : t.entries.Perm u.entries) : t.Alike u := by
  refine alike_iff_residents.mpr ⟨same, fun bucket hb => List.perm_iff_count.mpr fun value => ?_⟩
  by_cases free : value = emptyCell
  · -- the empty value is not a resident
    have absent : ∀ v : Table, (v.residents bucket).count value = 0 := by
      intro v
      rw [List.count_eq_zero, free]
      simp [residents]
    rw [absent, absent]
  · unfold residents
    rw [List.count_filter (by simpa using free), List.count_filter (by simpa using free),
      ← count_entries hb free, ← count_entries (same ▸ hb) free]
    exact perm.count_eq _

section

variable {t u : Table} (a : t.Alike u)
include a

theorem Alike.mem_row_iff {bucket : Nat} (hb : bucket < t.shape.buckets) (value : UInt64) :
    value ∈ u.row bucket ↔ value ∈ t.row bucket :=
  (a.row_perm bucket hb).mem_iff.symm

theorem Alike.entries_perm : t.entries.Perm u.entries := by
  unfold entries
  rw [a.shape_eq]
  refine List.Perm.flatMap_left _ fun bucket mem => ?_
  exact ((a.row_perm bucket (List.mem_range.mp mem)).filter _).map _

theorem Alike.count_eq (h : t.WellFormed) (h' : u.WellFormed) : u.count = t.count := by
  rw [h.count_eq, h'.count_eq, a.entries_perm.length_eq]

end

/-- **Equality of well-formed tables** is that of their rows, up to the order in each row. -/
theorem beq_iff_alike {t u : Table} (h : t.WellFormed) (h' : u.WellFormed) :
    (t == u) = true ↔ t.Alike u := by
  show t.sameContents u = true ↔ _
  unfold sameContents compatible
  simp only [Bool.and_eq_true, beq_iff_eq, List.all_eq_true, List.mem_range]
  constructor
  · rintro ⟨⟨same, -⟩, sorted⟩
    exact alike_iff_residents.mpr
      ⟨same.symm, fun bucket hb => sortedResidents_eq_iff.mp (sorted bucket hb)⟩
  · intro a
    refine ⟨⟨a.shape_eq.symm, (a.count_eq h h').symm⟩, fun bucket hb => ?_⟩
    exact sortedResidents_eq_iff.mpr ((alike_iff_residents.mp a).2 bucket hb)

/-! ## Changes -/

theorem Alike.clear {t u : Table} (a : t.Alike u) (h : t.WellFormed) (h' : u.WellFormed) :
    t.clear.Alike u.clear := by
  have blank : u.clear = t.clear := by
    unfold Table.clear
    rw [h.size_words, h'.size_words, a.shape_eq]
  refine ⟨a.shape_eq, fun bucket _ => ?_⟩
  rw [blank]

theorem replaceIn_eq_some {t t' : Table} {new old : UInt64} {places : List Nat}
    (found : t.replaceIn new old places = some t') : ∃ place ∈ places, ∃ slot,
      t.slotOf? old place = some slot ∧ t' = t.store place slot new := by
  obtain ⟨place, mem, found⟩ := List.exists_of_findSome?_eq_some found
  obtain ⟨slot, first, rfl⟩ := Option.map_eq_some_iff.mp found
  exact ⟨place, mem, slot, first, rfl⟩

theorem isSome_replaceIn_iff {t : Table} {new old : UInt64} {places : List Nat} :
    (t.replaceIn new old places).isSome ↔ ∃ place ∈ places, old ∈ t.row place := by
  unfold replaceIn
  simp only [List.isSome_findSome?, List.any_eq_true, Option.isSome_map, isSome_slotOf?_iff]

theorem WellFormed.replaceIn {t t' : Table} (h : t.WellFormed) {new old : UInt64}
    {places : List Nat} (inside : ∀ place ∈ places, place < t.shape.buckets)
    (found : t.replaceIn new old places = some t') : t'.WellFormed ∧ t'.shape = t.shape := by
  obtain ⟨place, mem, slot, first, rfl⟩ := replaceIn_eq_some found
  exact ⟨h.store (inside place mem) (slotOf?_eq_some first).1 new, rfl⟩

section

variable {t u : Table} (a : t.Alike u) (h : t.WellFormed) (h' : u.WellFormed)
include a h h'

/-- Two cells that hold the same are overwritten with the same. -/
theorem Alike.store {bucket slot slot' : Nat} (hb : bucket < t.shape.buckets)
    (hs : slot < t.shape.slots) (hs' : slot' < u.shape.slots)
    (same : t.cell bucket slot = u.cell bucket slot') (value : UInt64) :
    (t.store bucket slot value).Alike (u.store bucket slot' value) := by
  refine ⟨a.shape_eq, fun other hother => ?_⟩
  rw [h.row_store hb hs, h'.row_store (a.shape_eq ▸ hb) hs', a.shape_eq]
  split
  · -- both rows, with the old value put on top, are the old rows with the new value on top
    have mine := perm_cons_set (l := t.row bucket) (by simpa using hs)
      (value &&& lowMask t.shape.bits)
    have theirs := perm_cons_set (l := u.row bucket) (by simpa using hs')
      (value &&& lowMask t.shape.bits)
    rw [getElem_row, same] at mine
    rw [getElem_row] at theirs
    exact (mine.trans (((a.row_perm bucket hb).cons _).trans theirs.symm)).cons_inv
  · exact a.row_perm other hother

/-- A value is found in the same one of several buckets, if it is found. -/
theorem Alike.replaceIn (new old : UInt64) : ∀ {places : List Nat},
    (∀ place ∈ places, place < t.shape.buckets) →
      (t.replaceIn new old places = none ∧ u.replaceIn new old places = none) ∨
      ∃ t' u', t.replaceIn new old places = some t' ∧ u.replaceIn new old places = some u' ∧
        t'.Alike u' := by
  intro places
  induction places with
  | nil =>
    intro _
    exact Or.inl ⟨rfl, rfl⟩
  | cons place places ih =>
    intro inside
    have hb := inside place List.mem_cons_self
    have rest := ih fun other mem => inside other (List.mem_cons_of_mem _ mem)
    unfold Table.replaceIn at rest ⊢
    rw [List.findSome?_cons, List.findSome?_cons]
    cases mine : t.slotOf? old place with
    | none =>
      have absent := mt (a.mem_row_iff hb old).mp (slotOf?_eq_none_iff.mp mine)
      rw [slotOf?_eq_none_iff.mpr absent]
      exact rest
    | some slot =>
      have there := (a.mem_row_iff hb old).mpr (isSome_slotOf?_iff.mp (by rw [mine]; rfl))
      obtain ⟨slot', theirs⟩ := Option.isSome_iff_exists.mp (isSome_slotOf?_iff.mpr there)
      obtain ⟨hs, cell⟩ := slotOf?_eq_some mine
      obtain ⟨hs', cell'⟩ := slotOf?_eq_some theirs
      rw [theirs]
      exact Or.inr ⟨_, _, rfl, rfl, a.store h h' hb hs hs' (cell.trans cell'.symm) new⟩

end

end Cuckoo.Table

import Cuckoo.Proofs.Table.Cells
import Mathlib.Data.List.Count
import Mathlib.Data.List.Perm.Basic

/-!
# What a table holds

The content of a table is the list of its entries, read as a multiset: which fingerprints there are,
and in which bucket each of them is. Every operation of a table changes this multiset by one item at
most, and **all that later files know of a table is how its entries change**:

* `put` adds one entry or finds the bucket full,
* `replaceFirst` with the empty value takes one entry away or finds none,
* an exchange of two fingerprints swaps one entry for another.

The three are cases of `entries_store`, which says what a single overwrite does. The counted number of
entries follows, so `WellFormed` is kept by all of them.
-/

set_option autoImplicit false

namespace Cuckoo

open BitString Runs

/-! ## Lists -/

/-- Two families of lists that differ at one index, by one item there, differ by that item when they
are strung together. -/
theorem perm_cons_flatMap {α ι : Type} {f g : ι → List α} {x y : α} {i : ι} :
    ∀ {l : List ι}, i ∈ l → l.Nodup → (∀ j ∈ l, j ≠ i → f j = g j) →
      (x :: f i).Perm (y :: g i) → (x :: l.flatMap f).Perm (y :: l.flatMap g) := by
  intro l
  induction l with
  | nil => intro hi; exact absurd hi (by simp)
  | cons j l ih =>
    intro hi nodup off swap
    obtain ⟨hj, nodup⟩ := List.nodup_cons.mp nodup
    rw [List.flatMap_cons, List.flatMap_cons]
    by_cases hij : j = i
    · -- the index is here, and the families agree behind it
      subst hij
      have rest : l.flatMap f = l.flatMap g := by
        refine List.flatMap_congr fun k hk => off k (List.mem_cons_of_mem _ hk) ?_
        rintro rfl
        exact hj hk
      rw [rest]
      exact swap.append_right _
    · have hi : i ∈ l := by
        rcases List.mem_cons.mp hi with rfl | hi
        · exact absurd rfl hij
        · exact hi
      rw [off j List.mem_cons_self hij]
      calc (x :: (g j ++ l.flatMap f)).Perm (g j ++ x :: l.flatMap f) := List.perm_middle.symm
        _ |>.Perm (g j ++ y :: l.flatMap g) :=
          (ih hi nodup (fun k hk => off k (List.mem_cons_of_mem _ hk)) swap).append_left _
        _ |>.Perm (y :: (g j ++ l.flatMap g)) := List.perm_middle

theorem perm_cons_set {α : Type} {l : List α} {i : Nat} (hi : i < l.length) (y : α) :
    (l[i] :: l.set i y).Perm (y :: l) := by
  calc (l[i] :: l.set i y).Perm (l[i] :: y :: l.eraseIdx i) :=
        (List.set_perm_cons_eraseIdx hi y).cons _
    _ |>.Perm (y :: l[i] :: l.eraseIdx i) := List.Perm.swap _ _ _
    _ |>.Perm (y :: l) := (List.getElem_cons_eraseIdx_perm hi).cons _

theorem count_flatMap_of_mem {α ι : Type} [BEq α] [LawfulBEq α] {f : ι → List α} {x : α} {i : ι} :
    ∀ {l : List ι}, i ∈ l → l.Nodup → (∀ j ∈ l, j ≠ i → x ∉ f j) →
      (l.flatMap f).count x = (f i).count x := by
  intro l
  induction l with
  | nil => intro hi; exact absurd hi (by simp)
  | cons j l ih =>
    intro hi nodup off
    obtain ⟨hj, nodup⟩ := List.nodup_cons.mp nodup
    rw [List.flatMap_cons, List.count_append]
    by_cases hij : j = i
    · -- the item is here, so it is nowhere behind
      subst hij
      have rest : (l.flatMap f).count x = 0 := by
        rw [List.count_eq_zero, List.mem_flatMap]
        rintro ⟨k, hk, hx⟩
        exact off k (List.mem_cons_of_mem _ hk) (fun h => hj (h ▸ hk)) hx
      rw [rest, Nat.add_zero]
    · have hi : i ∈ l := by
        rcases List.mem_cons.mp hi with rfl | hi
        · exact absurd rfl hij
        · exact hi
      rw [List.count_eq_zero.mpr (off j List.mem_cons_self hij), Nat.zero_add]
      exact ih hi nodup fun k hk => off k (List.mem_cons_of_mem _ hk)

namespace Table

/-! ## Rows -/

@[simp] theorem length_row (t : Table) (bucket : Nat) : (t.row bucket).length = t.shape.slots := by
  simp [row]

@[simp] theorem getElem_row (t : Table) (bucket : Nat) {slot : Nat}
    (h : slot < (t.row bucket).length) : (t.row bucket)[slot] = t.cell bucket slot := by
  simp [row]

theorem mem_row_iff {t : Table} {bucket : Nat} {value : UInt64} :
    value ∈ t.row bucket ↔ ∃ slot, slot < t.shape.slots ∧ t.cell bucket slot = value := by
  simp [row]

theorem slotOf?_eq_some {t : Table} {value : UInt64} {bucket slot : Nat}
    (h : t.slotOf? value bucket = some slot) :
    slot < t.shape.slots ∧ t.cell bucket slot = value := by
  unfold slotOf? at h
  refine ⟨List.mem_range.mp (List.mem_of_find?_eq_some h), ?_⟩
  have found := List.find?_some h
  exact beq_iff_eq.mp found

theorem slotOf?_eq_none_iff {t : Table} {value : UInt64} {bucket : Nat} :
    t.slotOf? value bucket = none ↔ value ∉ t.row bucket := by
  unfold slotOf?
  rw [List.find?_eq_none, mem_row_iff]
  simp

theorem isSome_slotOf?_iff {t : Table} {value : UInt64} {bucket : Nat} :
    (t.slotOf? value bucket).isSome = true ↔ value ∈ t.row bucket := by
  rw [Option.isSome_iff_ne_none, ne_eq, slotOf?_eq_none_iff, not_not]

/-! ## Entries -/

/-- Every cell with its bucket, in the order of the cells. -/
def contents (t : Table) : List (Nat × UInt64) :=
  (List.range t.shape.buckets).flatMap fun bucket => (t.row bucket).map fun value => (bucket, value)

def occupied (entry : Nat × UInt64) : Bool := entry.2 ≠ emptyCell

theorem entries_eq_filter (t : Table) : t.entries = t.contents.filter occupied := by
  unfold entries contents residents
  rw [List.filter_flatMap]
  refine List.flatMap_congr fun bucket _ => ?_
  rw [List.filter_map]
  rfl

theorem mem_contents_iff {t : Table} {bucket : Nat} {value : UInt64} :
    (bucket, value) ∈ t.contents ↔ bucket < t.shape.buckets ∧ value ∈ t.row bucket := by
  simp [contents]

theorem mem_entries_iff {t : Table} {bucket : Nat} {value : UInt64} :
    (bucket, value) ∈ t.entries ↔
      bucket < t.shape.buckets ∧ value ∈ t.row bucket ∧ value ≠ emptyCell := by
  rw [entries_eq_filter, List.mem_filter, mem_contents_iff]
  simp [occupied, and_assoc]

theorem count_entries {t : Table} {bucket : Nat} {value : UInt64} (hb : bucket < t.shape.buckets)
    (hv : value ≠ emptyCell) : t.entries.count (bucket, value) = (t.row bucket).count value := by
  rw [entries_eq_filter, List.count_filter (by simpa [occupied] using hv)]
  unfold contents
  rw [count_flatMap_of_mem (List.mem_range.mpr hb) List.nodup_range]
  · exact List.count_map_of_injective _ _ (fun _ _ h => (Prod.mk.inj h).2) _
  · intro other _ hother hm
    obtain ⟨v, -, hv⟩ := List.mem_map.mp hm
    exact hother (Prod.mk.inj hv).1

section

variable {t : Table} (h : t.WellFormed)
include h

theorem WellFormed.counted {bucket slot : Nat} (hb : bucket < t.shape.buckets)
    (hs : slot < t.shape.slots) (used : t.cell bucket slot ≠ emptyCell) : 0 < t.count := by
  rw [h.count_eq]
  apply List.length_pos_of_mem
  exact mem_entries_iff.mpr ⟨hb, mem_row_iff.mpr ⟨slot, hs, rfl⟩, used⟩

/-! ## One cell overwritten -/

theorem WellFormed.row_store {bucket slot : Nat} (hb : bucket < t.shape.buckets)
    (hs : slot < t.shape.slots) (value : UInt64) (bucket' : Nat) :
    (t.store bucket slot value).row bucket' =
      if bucket' = bucket then (t.row bucket).set slot (value &&& lowMask t.shape.bits)
      else t.row bucket' := by
  apply List.ext_getElem
  · split <;> simp
  · intro i hi _
    have hi : i < t.shape.slots := by simpa using hi
    rw [getElem_row, h.cell_store hb hs value bucket' hi]
    by_cases same : bucket' = bucket
    · subst same
      simp [List.getElem_set, eq_comm]
    · simp [same]

theorem WellFormed.contents_store {bucket slot : Nat} (hb : bucket < t.shape.buckets)
    (hs : slot < t.shape.slots) (value : UInt64) :
    ((bucket, t.cell bucket slot) :: (t.store bucket slot value).contents).Perm
      ((bucket, value &&& lowMask t.shape.bits) :: t.contents) := by
  refine perm_cons_flatMap (List.mem_range.mpr hb) List.nodup_range ?_ ?_
  · intro other _ hother
    rw [h.row_store hb hs, if_neg hother]
  · have row : slot < (t.row bucket).length := by simpa using hs
    have swap := (perm_cons_set row (value &&& lowMask t.shape.bits)).map fun v => (bucket, v)
    rw [h.row_store hb hs, if_pos rfl]
    simpa using swap

/-- **What a single overwrite does to the entries**: the old value of the cell, if it was in use, gives
way to the new one, if it is in use now. -/
theorem WellFormed.entries_store {bucket slot : Nat} (hb : bucket < t.shape.buckets)
    (hs : slot < t.shape.slots) (value : UInt64) :
    ([(bucket, t.cell bucket slot)].filter occupied ++ (t.store bucket slot value).entries).Perm
      ([(bucket, value &&& lowMask t.shape.bits)].filter occupied ++ t.entries) := by
  rw [entries_eq_filter, entries_eq_filter, ← List.filter_append, ← List.filter_append]
  exact (h.contents_store hb hs value).filter _

theorem WellFormed.store {bucket slot : Nat} (hb : bucket < t.shape.buckets)
    (hs : slot < t.shape.slots) (value : UInt64) : (t.store bucket slot value).WellFormed := by
  refine ⟨h.shape_ok, by simpa using h.size_words, ?_⟩
  have sizes := (h.entries_store hb hs value).length_eq
  have counted := h.counted hb hs
  show recount t.count (t.cell bucket slot) (value &&& lowMask t.shape.bits) = _
  rw [h.count_eq] at counted ⊢
  unfold recount
  by_cases ho : t.cell bucket slot = emptyCell <;>
    by_cases hn : value &&& lowMask t.shape.bits = emptyCell <;>
    simp [occupied, ho, hn] at sizes counted ⊢ <;> omega

end

section

variable {t : Table} (h : t.WellFormed) {bucket slot : Nat} (hb : bucket < t.shape.buckets)
  (hs : slot < t.shape.slots) {value : UInt64}
include h hb hs

theorem WellFormed.entries_fill (free : t.cell bucket slot = emptyCell) (used : value ≠ emptyCell)
    (fits : t.fits value = true) :
    (t.store bucket slot value).entries.Perm ((bucket, value) :: t.entries) := by
  have change := h.entries_store hb hs value
  rw [(h.fits_iff value).mp fits, free] at change
  simpa [occupied, used] using change

theorem WellFormed.entries_wipe (held : t.cell bucket slot = value) (used : value ≠ emptyCell) :
    ((bucket, value) :: (t.store bucket slot emptyCell).entries).Perm t.entries := by
  have change := h.entries_store hb hs emptyCell
  rw [(h.fits_iff emptyCell).mp h.fits_emptyCell, held] at change
  simpa [occupied, used] using change

theorem WellFormed.entries_swap (old : t.cell bucket slot ≠ emptyCell) (used : value ≠ emptyCell)
    (fits : t.fits value = true) :
    ((bucket, t.cell bucket slot) :: (t.store bucket slot value).entries).Perm
      ((bucket, value) :: t.entries) := by
  have change := h.entries_store hb hs value
  rw [(h.fits_iff value).mp fits] at change
  simpa [occupied, used, old] using change

end

/-! ## Operations -/

section

variable {t : Table} (h : t.WellFormed) {bucket : Nat} (hb : bucket < t.shape.buckets)
include h hb

theorem WellFormed.replaceFirst_eq {old : UInt64} (fits : t.fits old = true) (new : UInt64) :
    t.replaceFirst new old bucket =
      .ok ((t.slotOf? old bucket).map fun slot => t.store bucket slot new) := by
  unfold replaceFirst checkBucket
  rw [if_pos hb, if_pos fits, pure_eq, ok_bind]
  cases found : t.slotOf? old bucket with
  | none => rfl
  | some slot =>
    show (t.exchange new bucket slot >>= _) = _
    rw [h.exchange_eq hb (slotOf?_eq_some found).1]
    rfl

theorem WellFormed.put_eq {fingerprint : UInt64} (used : fingerprint ≠ emptyCell)
    (fits : t.fits fingerprint = true) :
    t.put fingerprint bucket =
      .ok ((t.slotOf? emptyCell bucket).map fun slot => t.store bucket slot fingerprint) := by
  unfold put checkBucket
  rw [if_pos hb, if_neg (by simp [used, fits]), pure_eq, ok_bind]
  exact h.replaceFirst_eq hb h.fits_emptyCell fingerprint

omit h in
theorem holds_eq {fingerprint : UInt64} (used : fingerprint ≠ emptyCell)
    (fits : t.fits fingerprint = true) :
    t.holds fingerprint bucket = .ok (decide (fingerprint ∈ t.row bucket)) := by
  unfold holds checkBucket
  rw [if_pos hb, pure_eq, ok_bind, fits, bne_iff_ne.mpr used, pure_eq]
  congr 1
  rw [Bool.eq_iff_iff, decide_eq_true_iff, ← isSome_slotOf?_iff]
  simp

end

/-! ## Where tables come from -/

theorem cell_replicate (s : Shape) (size count bucket slot : Nat) (pos : 1 ≤ s.bits)
    (le : s.bits ≤ 64) :
    (Table.mk s (Array.replicate size 0) count).cell bucket slot = emptyCell := by
  apply word_ext
  intro j
  show (peek _ _ _).toNat.testBit j = _
  rw [testBit_peek _ _ pos le, bit_replicate, Bool.and_false]
  exact (Nat.zero_testBit j).symm

theorem wellFormed_replicate {s : Shape} (h : s.check = .ok ()) :
    (Table.mk s (Array.replicate s.words 0) 0).WellFormed := by
  obtain ⟨-, -, pos, le, -⟩ := Shape.check_eq_ok_iff.mp h
  refine ⟨h, by simp, ?_⟩
  symm
  rw [List.length_eq_zero_iff, List.eq_nil_iff_forall_not_mem]
  rintro ⟨bucket, value⟩ hm
  obtain ⟨-, hrow, hv⟩ := mem_entries_iff.mp hm
  obtain ⟨slot, -, rfl⟩ := mem_row_iff.mp hrow
  exact hv (cell_replicate s s.words 0 bucket slot pos le)

theorem wellFormed_empty {s : Shape} {t : Table} (h : Table.empty s = .ok t) : t.WellFormed := by
  unfold Table.empty at h
  obtain ⟨_, ok, h⟩ := bind_eq_ok_iff.mp h
  cases h
  exact wellFormed_replicate ok

theorem wellFormed_ofWords {s : Shape} {words : Array UInt64} {count : Nat} {t : Table}
    (h : Table.ofWords s words count = .ok t) : t.WellFormed ∧ t = ⟨s, words, count⟩ := by
  unfold Table.ofWords at h
  obtain ⟨_, ok, h⟩ := bind_eq_ok_iff.mp h
  simp only [throw_eq, error_bind, pure_eq, ite_error_eq_ok_iff, ne_eq, not_not] at h
  obtain ⟨size, found, h⟩ := h
  cases h
  exact ⟨⟨mapError_eq_ok_iff.mp ok, size, found.symm⟩, rfl⟩

/-- A well-formed table is what its own words and count make. -/
theorem WellFormed.ofWords_eq {t : Table} (h : t.WellFormed) :
    Table.ofWords t.shape t.words t.count = .ok t := by
  have entries : (Table.mk t.shape t.words 0).entries.length = t.count := h.count_eq.symm
  unfold Table.ofWords
  rw [h.shape_ok, if_neg (not_not_intro h.size_words), if_neg (not_not_intro entries)]
  rfl

theorem WellFormed.clear {t : Table} (h : t.WellFormed) : t.clear.WellFormed := by
  have zeros : t.clear = ⟨t.shape, Array.replicate t.shape.words 0, 0⟩ := by
    unfold Table.clear
    rw [h.size_words]
  rw [zeros]
  exact wellFormed_replicate h.shape_ok

end Table

end Cuckoo

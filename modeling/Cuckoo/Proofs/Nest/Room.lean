import Cuckoo.Proofs.Fingerprint.Scan
import Cuckoo.Proofs.Nest.Counting
import Cuckoo.Proofs.Nest.Script

/-!
# What an insertion stores, and what can stop it

A table refuses to store the empty value and values that are too wide, and it does so in the same way as
when a bucket has no empty cell. An insertion takes every such answer to mean that the bucket is full.

It may: the fingerprint of a key is a window of a hash, never zero and no wider than a cell, and a resident
that was evicted came from a full bucket. So **every `put` of an insertion wants nothing but room**, with
the table as it is at that moment. That the bucket in hand is full is what one turn of the eviction loop
hands on to the next; which bucket comes next may be any, so nothing is asked of the rules.
-/

set_option autoImplicit false

namespace Cuckoo

open Hash Runs

/-! ## Puts that want room -/

namespace Table

/-- The fingerprint can be stored, so the answer that it has no place means that the bucket is full. -/
structure WantsRoom (t : Table) (fingerprint : UInt64) (bucket : Nat) : Prop where
  used : fingerprint ≠ emptyCell
  fits : t.fits fingerprint = true
  none_iff : t.put fingerprint bucket = .ok none ↔
    bucket < t.shape.buckets ∧ emptyCell ∉ t.row bucket

/-- Among these changes, each `put` wants room in the table that the changes before it lead to. -/
def PutsWantRoom (t : Table) (edits : List Edit) : Prop :=
  ∀ before fingerprint bucket after, edits = before ++ .put fingerprint bucket :: after →
    ∃ u, t.editAll before = .ok u ∧ u.WantsRoom fingerprint bucket

section

variable {t : Table} {fingerprint : UInt64} {bucket : Nat}

theorem WellFormed.wantsRoom (h : t.WellFormed) (used : fingerprint ≠ emptyCell)
    (fits : t.fits fingerprint = true) (bucket : Nat) : t.WantsRoom fingerprint bucket := by
  refine ⟨used, fits, ?_⟩
  by_cases inside : bucket < t.shape.buckets
  · rw [h.put_eq inside used fits, ← slotOf?_eq_none_iff, Except.ok.injEq, Option.map_eq_none_iff]
    exact ⟨fun full => ⟨inside, full⟩, And.right⟩
  · have refused : t.put fingerprint bucket = .error (.noBucket bucket t.shape.buckets) := by
      rw [put, checkBucket, if_neg inside]
      rfl
    rw [refused]
    refine ⟨fun answer => ?_, fun room => absurd room.1 inside⟩
    cases answer

theorem WantsRoom.pending (wants : t.WantsRoom fingerprint bucket)
    (stored : t.put fingerprint bucket = .ok none) : t.Pending fingerprint bucket :=
  have room := wants.none_iff.mp stored
  ⟨room.1, wants.used, wants.fits, room.2⟩

theorem PutsWantRoom.of_no_puts {edits : List Edit}
    (quiet : ∀ fingerprint bucket, .put fingerprint bucket ∉ edits) : t.PutsWantRoom edits := by
  rintro before fingerprint bucket after rfl
  exact absurd (List.mem_append_right before List.mem_cons_self) (quiet fingerprint bucket)

theorem PutsWantRoom.cons {e : Edit} {edits : List Edit}
    (first : ∀ fingerprint bucket, e = .put fingerprint bucket → t.WantsRoom fingerprint bucket)
    (rest : edits = [] ∨ ∃ u, t.edit e = .ok u ∧ u.PutsWantRoom edits) :
    t.PutsWantRoom (e :: edits) := by
  intro before fingerprint bucket after split
  cases before with
  | nil =>
    cases split
    exact ⟨t, rfl, first fingerprint bucket rfl⟩
  | cons e' before =>
    obtain ⟨rfl, behind⟩ := List.cons.inj split
    rcases rest with rfl | ⟨u, run, rest⟩
    · simp at behind
    · obtain ⟨v, led, wants⟩ := rest before fingerprint bucket after behind
      exact ⟨v, (editAll_cons run before).trans led, wants⟩

/-- Where a bucket is full, the changes go on from the same table; where it is not, they end. -/
theorem PutsWantRoom.put (wants : t.WantsRoom fingerprint bucket) {edits : List Edit}
    (rest : t.put fingerprint bucket = .ok none → t.PutsWantRoom edits) :
    t.PutsWantRoom (.put fingerprint bucket :: match t.put fingerprint bucket with
      | .ok none => edits
      | _ => []) := by
  have first : ∀ fp b, Edit.put fingerprint bucket = .put fp b → t.WantsRoom fp b := by
    intro fp b same
    cases same
    exact wants
  split
  next stored => exact .cons first (.inr ⟨t, edit_put stored, rest stored⟩)
  next => exact .cons first (.inl rfl)

theorem PutsWantRoom.append {edits more : List Edit} (puts : t.PutsWantRoom edits)
    (quiet : ∀ fingerprint bucket, .put fingerprint bucket ∉ more) :
    t.PutsWantRoom (edits ++ more) := by
  intro before fingerprint bucket after split
  rcases List.append_eq_append_iff.mp split with ⟨behind, -, split⟩ | ⟨rest, here, split⟩
  · exact absurd (split ▸ List.mem_append_right behind List.mem_cons_self) (quiet fingerprint bucket)
  · cases rest with
    | nil =>
      cases split
      exact absurd List.mem_cons_self (quiet fingerprint bucket)
    | cons e rest =>
      obtain ⟨rfl, -⟩ := List.cons.inj split
      exact puts before fingerprint bucket rest here

end

end Table

namespace Nest

variable {σ : Type}

/-! ## The puts of an insertion -/

section

variable {r : Rules σ}

theorem turn_of_evict {n next : Nest σ} {fingerprint : UInt64} {bucket : Nat} {e : Eviction}
    (h : n.table.WellFormed) (run : n.evict r fingerprint bucket = .ok (e, next)) :
    Turn r n fingerprint bucket e next := by
  obtain ⟨⟨slot, picker⟩, pick, run⟩ := bind_eq_ok_iff.mp run
  obtain ⟨⟨victim, table⟩, stored, run⟩ := bind_eq_ok_iff.mp run
  cases run
  obtain ⟨hb, hs, rfl⟩ := h.exchange_cases stored
  rw [h.exchange_eq hb hs] at stored
  cases stored
  exact ⟨rfl, pick, hs, rfl, rfl⟩

theorem putsWantRoom_chaseEdits : ∀ (left : Nat) {n : Nest σ} {fingerprint : UInt64} {bucket : Nat},
    n.table.WellFormed → n.table.Pending fingerprint bucket →
    n.table.PutsWantRoom (chaseEdits r left n fingerprint bucket) := by
  intro left
  induction left with
  | zero => exact fun _ _ => .of_no_puts fun _ _ => List.not_mem_nil
  | succ left ih =>
    intro n fingerprint bucket h hand
    rw [chaseEdits]
    split
    next => exact .of_no_puts fun _ _ => List.not_mem_nil
    next e next evicted =>
      have turn := turn_of_evict h evicted
      have h' := turn.wellFormed h hand
      have wants := h'.wantsRoom (turn.victim_used hand) (turn.victim_fits h)
        (next.alternate r bucket e.victim)
      refine .cons (fun _ _ same => ?_) (.inr ⟨next.table, edit_of_evict evicted,
        .put wants fun stored => ih h' (wants.pending stored)⟩)
      cases same

theorem not_put_mem_undoEdits (evictions : List Eviction) (fingerprint : UInt64) (bucket : Nat) :
    .put fingerprint bucket ∉ undoEdits evictions := by
  intro mem
  obtain ⟨e, -, same⟩ := List.mem_map.mp mem
  cases same

theorem putsWantRoom_relocateEdits {n : Nest σ} {fingerprint : UInt64} {bucket : Nat}
    (h : n.table.WellFormed) (hand : n.table.Pending fingerprint bucket) :
    n.table.PutsWantRoom (n.relocateEdits r fingerprint bucket) := by
  refine (putsWantRoom_chaseEdits r.budget h hand).append ?_
  split
  next evictions _ _ => exact not_put_mem_undoEdits evictions
  next => exact fun _ _ => List.not_mem_nil

/-- Evictions begin in a bucket that was found to be full. -/
theorem putsWantRoom_storeEdits {n : Nest σ} {fingerprint : UInt64} {bucket : Nat}
    (h : n.table.WellFormed) (used : fingerprint ≠ emptyCell) (fits : n.table.fits fingerprint = true)
    {places : List Nat} (searched : n.table.Pending fingerprint bucket ∨ bucket ∈ places) :
    n.table.PutsWantRoom (n.storeEdits r fingerprint bucket places) := by
  induction places with
  | nil => exact putsWantRoom_relocateEdits h (searched.resolve_right List.not_mem_nil)
  | cons place places ih =>
    have wants := h.wantsRoom used fits place
    rw [storeEdits]
    refine .put wants fun stored => ih ?_
    rcases searched with hand | mem
    · exact .inl hand
    · rcases List.mem_cons.mp mem with rfl | mem
      · exact .inl (wants.pending stored)
      · exact .inr mem

theorem putsWantRoom_insertEdits {n : Nest σ} (h : n.table.WellFormed) (key : Key) :
    n.table.PutsWantRoom (n.insertEdits r key) := by
  obtain ⟨fingerprint, located, used, fits⟩ := exists_locate h r key
  rw [insertEdits, located]
  exact putsWantRoom_storeEdits h used fits (.inr List.mem_cons_self)

end

/-- **The lowest window that is not zero is found, and it can always be stored.** A hash is cut down to it
by the scan, which is never stuck, and so is the hash of every key in every table. All that an insertion
puts into a bucket has a place there unless the bucket is full; and what it puts is what a recorded run
takes down. -/
theorem lowest_window_is_storable :
    (∀ (width : Nat) (hash : UInt32), 1 ≤ width → width ≤ Fingerprint.maxWidth →
      ∃ fingerprint, Fingerprint.scanned? width hash = some fingerprint ∧
        Fingerprint.ofHash width hash = .ok fingerprint ∧
        Fingerprint.CutsTo width hash fingerprint.toNat ∧
        1 ≤ fingerprint.toNat ∧ fingerprint.toNat ≤ 2 ^ width - 1) ∧
    ∀ {σ : Type} (r : Rules σ) (n : Nest σ), n.table.WellFormed → ∀ key : Key,
      (∃ tag : UInt32,
        Fingerprint.scanned? (min n.table.shape.bits Fingerprint.maxWidth) key.tag = some tag ∧
        n.locate r key = .ok (tag.toUInt64, (r.placement.home key.index n.bucketCount).toNat) ∧
        tag.toUInt64 ≠ emptyCell ∧ n.table.fits tag.toUInt64 = true) ∧
      n.table.PutsWantRoom (n.insertEdits r key) ∧
      (∀ o, n.insert r key = .ok o → n.table.editAll (n.insertEdits r key) = .ok o.state.table) ∧
      (Recorded.insert r n key).run = (n.insert r key).map fun o => (o, n.insertEdits r key) := by
  have cut : ∀ (width : Nat) (hash : UInt32), 1 ≤ width → width ≤ Fingerprint.maxWidth →
      ∃ fingerprint, Fingerprint.scanned? width hash = some fingerprint ∧
        Fingerprint.ofHash width hash = .ok fingerprint ∧
        Fingerprint.CutsTo width hash fingerprint.toNat := by
    intro width hash pos le
    obtain ⟨scanned, found, cuts⟩ := Fingerprint.exists_scanned? pos le hash
    obtain ⟨fingerprint, made, -⟩ := Fingerprint.exists_ofHash pos le hash
    -- both are the one number that the hash is cut down to
    have same := UInt32.toNat_inj.mp (cuts.unique (Fingerprint.cutsTo_of_ofHash pos le hash made))
    exact ⟨scanned, found, same ▸ made, cuts⟩
  refine ⟨?_, ?_⟩
  · intro width hash pos le
    obtain ⟨fingerprint, found, made, cuts⟩ := cut width hash pos le
    exact ⟨fingerprint, found, made, cuts, cuts.pos, cuts.le pos⟩
  · intro σ r n h key
    obtain ⟨tag, found, made, -⟩ := cut _ key.tag (Nat.le_min.mpr ⟨h.bits_pos, by decide⟩)
      (Nat.min_le_right n.table.shape.bits _)
    have located : n.locate r key =
        .ok (tag.toUInt64, (r.placement.home key.index n.bucketCount).toNat) := by
      rw [locate, made]
      rfl
    obtain ⟨fingerprint, located', used, fits⟩ := exists_locate h r key
    obtain ⟨rfl, -⟩ := Prod.mk.inj (Except.ok.inj (located'.symm.trans located))
    exact ⟨⟨tag, found, located, used, fits⟩, putsWantRoom_insertEdits h key,
      fun o run => editAll_insertEdits run, Recorded.tells_insert r n key⟩

/-- Windows of three bits leave two bits over, and these are not looked at. In a nest with two full
buckets, three times a `put` finds no room before a victim is stored in a third bucket. -/
theorem storable_when_cut_by_three :
    Fingerprint.scanned? 3 0xC0000000 = some 1 ∧
    Fingerprint.scanned? 32 0x80000000 = some 0x80000000 ∧
    (∃ u, stocked.table.editAll [.put 7 0, .put 7 3, .exchange 7 0 0] = .ok u ∧ u.WantsRoom 3 3) ∧
    ∃ o, stocked.insert byTurns ⟨4, 7⟩ = .ok o ∧ stocked.table.editAll [.put 7 0, .put 7 3,
      .exchange 7 0 0, .put 3 3, .exchange 3 3 1, .put 1 1] = .ok o.state.table := by
  obtain ⟨windows, nests⟩ := lowest_window_is_storable
  obtain ⟨_, rest, made, -⟩ := windows 3 0xC0000000 (by decide) (by decide)
  obtain ⟨_, whole, made', -⟩ := windows 32 0x80000000 (by decide) (by decide)
  cases made
  cases made'
  obtain ⟨-, puts, leads, -⟩ := nests byTurns stocked stocked_sound.wellFormed ⟨4, 7⟩
  refine ⟨rest, whole, puts _ 3 3 [.exchange 3 3 1, .put 1 1] rfl, ?_⟩
  exact ⟨_, rfl, leads _ rfl⟩

end Nest

end Cuckoo

import Cuckoo.Nest.Basic
import Cuckoo.Proofs.Fingerprint
import Cuckoo.Proofs.Table.Contents

/-!
# Chains of evictions, step by step

`Nest.chase` is a loop with two exits that passes on a table, a generator and a trail. This file says
once what a single turn of the loop can do, as an inductive relation `Chases`, and shows that the loop
never refuses (`exists_chases`). **Every later fact about evictions is an induction over `Chases`**:
that a spent chain can be undone, that a settled one loses no fingerprint, how many victims were
picked.

What holds at the beginning of every turn is `Pending`: a fingerprint is in hand, it could be stored,
and its bucket has no room for it.
-/

set_option autoImplicit false

namespace Cuckoo

open Hash Runs

namespace Placement

/-- The other bucket of a fingerprint in a table of a given shape, as a number. -/
def partner (P : Placement) (s : Shape) (fingerprint : UInt64) (bucket : Nat) : Nat :=
  (P.alternate (UInt64.ofNat bucket) fingerprint (UInt64.ofNat s.buckets)).toNat

/-- Alternate buckets are in range. This alone does not promise that they lead back. -/
def AlternatesBelow (P : Placement) (m : UInt64) : Prop :=
  ∀ bucket fingerprint : UInt64, bucket < m → P.alternate bucket fingerprint m < m

theorem toNat_bucketCount {t : Table} (h : t.WellFormed) :
    (UInt64.ofNat t.shape.buckets).toNat = t.shape.buckets :=
  UInt64.toNat_ofNat_of_lt' (Nat.lt_trans h.buckets_lt (by decide))

theorem ofNat_bucket_lt {t : Table} (h : t.WellFormed) {bucket : Nat}
    (hb : bucket < t.shape.buckets) :
    UInt64.ofNat bucket < UInt64.ofNat t.shape.buckets ∧ (UInt64.ofNat bucket).toNat = bucket := by
  have small : (UInt64.ofNat bucket).toNat = bucket :=
    UInt64.toNat_ofNat_of_lt' (Nat.lt_trans (Nat.lt_trans hb h.buckets_lt) (by decide))
  refine ⟨UInt64.lt_iff_toNat_lt.mpr ?_, small⟩
  rw [small, toNat_bucketCount h]
  exact hb

theorem AlternatesBelow.partner_lt {P : Placement} {t : Table} (h : t.WellFormed)
    (hP : P.AlternatesBelow (UInt64.ofNat t.shape.buckets)) (fingerprint : UInt64) {bucket : Nat}
    (hb : bucket < t.shape.buckets) : P.partner t.shape fingerprint bucket < t.shape.buckets := by
  have below := hP (UInt64.ofNat bucket) fingerprint (ofNat_bucket_lt h hb).1
  rw [UInt64.lt_iff_toNat_lt, toNat_bucketCount h] at below
  exact below

end Placement

/-- A fingerprint that could be stored is in hand, and the bucket has no room for it. -/
structure Table.Pending (t : Table) (fingerprint : UInt64) (bucket : Nat) : Prop where
  bucket_lt : bucket < t.shape.buckets
  used : fingerprint ≠ emptyCell
  fits : t.fits fingerprint = true
  full : emptyCell ∉ t.row bucket

def Rules.draw {σ : Type} (r : Rules σ) (slots : Nat) : (times : Nat) → σ → Checked (List Nat × σ)
  | 0, s => pure ([], s)
  | times + 1, s => do
    let (slot, s) ← r.pick s slots
    let (more, s) ← r.draw slots times s
    pure (slot :: more, s)

theorem Rules.length_draw {σ : Type} (r : Rules σ) (slots : Nat) :
    ∀ {times : Nat} {s s' : σ} {picks : List Nat},
      r.draw slots times s = .ok (picks, s') → picks.length = times := by
  intro times
  induction times with
  | zero =>
    intro s s' picks h
    cases h
    rfl
  | succ times ih =>
    intro s s' picks h
    obtain ⟨⟨slot, s₁⟩, _, h⟩ := bind_eq_ok_iff.mp h
    obtain ⟨⟨more, s₂⟩, drawn, h⟩ := bind_eq_ok_iff.mp h
    cases h
    exact congrArg (· + 1) (ih drawn)

namespace Nest

variable {σ : Type}

theorem alternate_eq (r : Rules σ) (n : Nest σ) (bucket : Nat) (fingerprint : UInt64) :
    n.alternate r bucket fingerprint = r.placement.partner n.table.shape fingerprint bucket := rfl

/-- One eviction: a picked slot of the bucket passes from its resident to the fingerprint in hand. -/
structure Turn (r : Rules σ) (n : Nest σ) (fingerprint : UInt64) (bucket : Nat) (e : Eviction)
    (next : Nest σ) : Prop where
  bucket_eq : e.bucket = bucket
  pick : r.pick n.picker n.table.shape.slots = .ok (e.slot, next.picker)
  slot_lt : e.slot < n.table.shape.slots
  victim_eq : e.victim = n.table.cell bucket e.slot
  table_eq : next.table = n.table.store bucket e.slot fingerprint

/-- The turns of the eviction loop. `Chases r left n fingerprint bucket trail chain` says that the
loop, when it may make `left` more evictions, ends in `chain`. -/
inductive Chases (r : Rules σ) :
    Nat → Nest σ → UInt64 → Nat → List Eviction → Chain σ → Prop
  /-- No eviction is left. -/
  | spent {n : Nest σ} {fingerprint : UInt64} {bucket : Nat} {trail : List Eviction} :
    Chases r 0 n fingerprint bucket trail (.exhausted trail n)
  /-- The victim finds an empty cell in its alternate bucket. -/
  | settles {left : Nat} {n next : Nest σ} {fingerprint : UInt64} {bucket free : Nat}
      {trail : List Eviction} {e : Eviction} (turn : Turn r n fingerprint bucket e next)
      (room : next.table.slotOf? emptyCell (n.alternate r bucket e.victim) = some free) :
    Chases r (left + 1) n fingerprint bucket trail (.settled (trail.length + 1)
      ⟨next.table.store (n.alternate r bucket e.victim) free e.victim, next.picker⟩)
  /-- The alternate bucket of the victim is full as well. -/
  | onward {left : Nat} {n next : Nest σ} {fingerprint : UInt64} {bucket : Nat}
      {trail : List Eviction} {e : Eviction} {chain : Chain σ}
      (turn : Turn r n fingerprint bucket e next)
      (full : next.table.slotOf? emptyCell (n.alternate r bucket e.victim) = none)
      (rest : Chases r left next e.victim (n.alternate r bucket e.victim) (e :: trail) chain) :
    Chases r (left + 1) n fingerprint bucket trail chain

/-! ## One turn -/

section

variable {r : Rules σ} {n next : Nest σ} {fingerprint : UInt64} {bucket : Nat} {e : Eviction}

theorem Turn.shape_eq (turn : Turn r n fingerprint bucket e next) :
    next.table.shape = n.table.shape := by rw [turn.table_eq, Table.shape_store]

theorem Turn.bucketCount_eq (turn : Turn r n fingerprint bucket e next) :
    next.bucketCount = n.bucketCount := by rw [bucketCount, turn.shape_eq, bucketCount]

theorem exists_turn (hpick : r.PicksInRange) (h : n.table.WellFormed) (fingerprint : UInt64)
    (bucket : Nat) : ∃ e next, Turn r n fingerprint bucket e next := by
  have some_slot : 0 < n.table.shape.slots := Nat.lt_of_lt_of_le (by decide) h.two_le_slots
  obtain ⟨slot, picker, pick, hs⟩ := hpick n.picker n.table.shape.slots some_slot
  exact ⟨⟨bucket, slot, n.table.cell bucket slot⟩, ⟨n.table.store bucket slot fingerprint, picker⟩,
    rfl, pick, hs, rfl, rfl⟩

variable (turn : Turn r n fingerprint bucket e next) (h : n.table.WellFormed)
  (hand : n.table.Pending fingerprint bucket)
include turn hand

theorem Turn.victim_used : e.victim ≠ emptyCell := by
  rw [turn.victim_eq]
  intro free
  exact hand.full (Table.mem_row_iff.mpr ⟨e.slot, turn.slot_lt, free⟩)

include h

theorem Turn.wellFormed : next.table.WellFormed := by
  rw [turn.table_eq]
  exact h.store hand.bucket_lt turn.slot_lt fingerprint

omit hand in
theorem Turn.victim_fits : next.table.fits e.victim = true := by
  have fits := h.fits_cell bucket e.slot
  rw [← turn.victim_eq] at fits
  unfold Table.fits at fits ⊢
  rw [turn.shape_eq]
  exact fits

theorem Turn.evict_eq : n.evict r fingerprint bucket = .ok (e, next) := by
  unfold evict
  rw [turn.pick, ok_bind]
  show (n.table.exchange fingerprint bucket e.slot >>= _) = _
  rw [h.exchange_eq hand.bucket_lt turn.slot_lt, ok_bind, ← turn.victim_eq, ← turn.table_eq,
    ← turn.bucket_eq]
  rfl

theorem Turn.alternate_lt (hP : r.placement.AlternatesBelow n.bucketCount) :
    n.alternate r bucket e.victim < next.table.shape.buckets := by
  rw [turn.shape_eq]
  exact hP.partner_lt h _ hand.bucket_lt

theorem Turn.put_eq (hP : r.placement.AlternatesBelow n.bucketCount) :
    next.table.put e.victim (n.alternate r bucket e.victim) =
      .ok ((next.table.slotOf? emptyCell (n.alternate r bucket e.victim)).map fun free =>
        next.table.store (n.alternate r bucket e.victim) free e.victim) :=
  (turn.wellFormed h hand).put_eq (turn.alternate_lt h hand hP) (turn.victim_used hand)
    (turn.victim_fits h)

theorem Turn.pending (hP : r.placement.AlternatesBelow n.bucketCount)
    (full : next.table.slotOf? emptyCell (n.alternate r bucket e.victim) = none) :
    next.table.Pending e.victim (n.alternate r bucket e.victim) where
  bucket_lt := turn.alternate_lt h hand hP
  used := turn.victim_used hand
  fits := turn.victim_fits h
  full := Table.slotOf?_eq_none_iff.mp full

theorem Turn.chase_succ (hP : r.placement.AlternatesBelow n.bucketCount) (left : Nat)
    (trail : List Eviction) : chase r (left + 1) n fingerprint bucket trail =
      match next.table.slotOf? emptyCell (n.alternate r bucket e.victim) with
      | some free => .ok (.settled (trail.length + 1)
          ⟨next.table.store (n.alternate r bucket e.victim) free e.victim, next.picker⟩)
      | none => chase r left next e.victim (n.alternate r bucket e.victim) (e :: trail) := by
  -- the loop asks the nest after the eviction, which has the same dimensions
  have same : next.alternate r bucket e.victim = n.alternate r bucket e.victim := by
    rw [alternate_eq, turn.shape_eq, alternate_eq]
  rw [chase, turn.evict_eq h hand, ok_bind]
  show (next.table.put e.victim (next.alternate r bucket e.victim) >>= _) = _
  rw [same, turn.put_eq h hand hP, ok_bind]
  cases next.table.slotOf? emptyCell (n.alternate r bucket e.victim) <;> rfl

end

/-! ## The whole loop -/

/-- **The eviction loop never refuses**, and what it does is a chain of turns. -/
theorem exists_chases {r : Rules σ} (hpick : r.PicksInRange) :
    ∀ (left : Nat) (n : Nest σ) (fingerprint : UInt64) (bucket : Nat) (trail : List Eviction),
      n.table.WellFormed → r.placement.AlternatesBelow n.bucketCount →
      n.table.Pending fingerprint bucket →
      ∃ chain, chase r left n fingerprint bucket trail = .ok chain ∧
        Chases r left n fingerprint bucket trail chain := by
  -- the evictions left are what the loop recurs on; nest, hand and trail change with every turn
  intro left
  induction left with
  | zero =>
    intro n fingerprint bucket trail _ _ _
    exact ⟨_, rfl, .spent⟩
  | succ left ih =>
    intro n fingerprint bucket trail h hP hand
    obtain ⟨e, next, turn⟩ := exists_turn hpick h fingerprint bucket
    have run := turn.chase_succ h hand hP left trail
    cases room : next.table.slotOf? emptyCell (n.alternate r bucket e.victim) with
    | some free =>
      rw [room] at run
      exact ⟨_, run, .settles turn room⟩
    | none =>
      rw [room] at run
      obtain ⟨chain, more, chases⟩ := ih next e.victim (n.alternate r bucket e.victim) (e :: trail)
        (turn.wellFormed h hand) (turn.bucketCount_eq ▸ hP) (turn.pending h hand hP room)
      exact ⟨chain, run.trans more, .onward turn room chases⟩

end Nest

end Cuckoo

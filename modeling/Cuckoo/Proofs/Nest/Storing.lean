import Cuckoo.Proofs.Nest.Chain

/-!
# Storing a fingerprint

An insertion looks for an empty cell in two buckets, a placement in one; otherwise they are the same.
`Stores` is the list of ways in which either can end: at once, after some evictions, or not at all.
`exists_insert` and `exists_place` say that both do end in one of these ways, and **what is true of
every way is true of both operations**.

The way that ends in failure is shown here to leave the table as it was. Undoing the evictions newest
first is an induction over the chain that grew the trail: what undoing has to reach stays the same
from turn to turn.
-/

set_option autoImplicit false

namespace Cuckoo.Nest

open Hash Runs

variable {σ : Type}

/-! ## Undoing a chain -/

section

variable {r : Rules σ} {n next : Nest σ} {fingerprint : UInt64} {bucket : Nat} {e : Eviction}

/-- Undoing the newest eviction leads back to where its turn began. -/
theorem Turn.undo_cons (turn : Turn r n fingerprint bucket e next) (h : n.table.WellFormed)
    (hand : n.table.Pending fingerprint bucket) (trail : List Eviction) :
    undo (e :: trail) next.table = undo trail n.table := by
  have h' := turn.wellFormed h hand
  have inside : bucket < next.table.shape.buckets := turn.shape_eq ▸ hand.bucket_lt
  have slot : e.slot < next.table.shape.slots := turn.shape_eq ▸ turn.slot_lt
  have back : next.table.store bucket e.slot e.victim = n.table := by
    rw [turn.table_eq, turn.victim_eq]
    exact h.store_store hand.bucket_lt turn.slot_lt _ (h.counted hand.bucket_lt turn.slot_lt)
  show (next.table.exchange e.victim e.bucket e.slot >>= _) = _
  rw [turn.bucket_eq, h'.exchange_eq inside slot, back]
  rfl

/-- A spent chain can be undone, all the way to where the loop began. -/
theorem Chases.undo_eq {left : Nat} {trail : List Eviction} {chain : Chain σ}
    (chases : Chases r left n fingerprint bucket trail chain) (h : n.table.WellFormed)
    (hP : r.placement.AlternatesBelow n.bucketCount) (hand : n.table.Pending fingerprint bucket) :
    ∀ {evictions : List Eviction} {last : Nest σ}, chain = .exhausted evictions last →
      undo evictions last.table = undo trail n.table := by
  induction chases with
  | spent =>
    intro evictions last ends
    cases ends
    rfl
  | settles => intro evictions last ends; cases ends
  | onward turn full _ ih =>
    intro evictions last ends
    have rest := ih (turn.wellFormed h hand) (turn.bucketCount_eq ▸ hP)
      (turn.pending h hand hP full) ends
    -- the rest of the chain is undone down to this turn's eviction, and then this one is
    rw [rest, turn.undo_cons h hand]

theorem Chases.draw_eq {left : Nat} {trail : List Eviction} {chain : Chain σ}
    (chases : Chases r left n fingerprint bucket trail chain) :
    ∀ {evictions : List Eviction} {last : Nest σ}, chain = .exhausted evictions last →
      ∃ picks, r.draw n.table.shape.slots left n.picker = .ok (picks, last.picker) := by
  induction chases with
  | spent =>
    intro evictions last ends
    cases ends
    exact ⟨[], rfl⟩
  | settles => intro evictions last ends; cases ends
  | @onward left n next _ _ _ e _ turn _ _ ih =>
    intro evictions last ends
    obtain ⟨picks, drawn⟩ := ih ends
    rw [turn.shape_eq] at drawn
    refine ⟨e.slot :: picks, ?_⟩
    rw [Rules.draw, turn.pick, ok_bind]
    show (r.draw n.table.shape.slots left next.picker >>= _) = _
    rw [drawn]
    rfl

end

/-! ## The ways to end -/

/-- How storing a fingerprint can end when the buckets in `tried` are searched for an empty cell and
evictions begin in `bucket`. -/
inductive Stores (r : Rules σ) (n : Nest σ) (fingerprint : UInt64) (bucket : Nat)
    (tried : List Nat) : Outcome (Nest σ) → Prop
  /-- There is an empty cell. -/
  | atOnce {place slot : Nat} (mem : place ∈ tried)
      (room : n.table.slotOf? emptyCell place = some slot) :
    Stores r n fingerprint bucket tried
      ⟨true, { n with table := n.table.store place slot fingerprint }, []⟩
  /-- There is none, and evictions make one. -/
  | moved {attempts : Nat} {last : Nest σ}
      (full : ∀ place ∈ tried, n.table.slotOf? emptyCell place = none)
      (chases : Chases r r.budget n fingerprint bucket [] (.settled attempts last)) :
    Stores r n fingerprint bucket tried ⟨true, last, [.relocated attempts]⟩
  /-- There is none, evictions make none, and they have been undone. -/
  | gaveUp {evictions : List Eviction} {last : Nest σ}
      (full : ∀ place ∈ tried, n.table.slotOf? emptyCell place = none)
      (chases : Chases r r.budget n fingerprint bucket [] (.exhausted evictions last)) :
    Stores r n fingerprint bucket tried
      ⟨false, { last with table := n.table }, [.exhausted r.budget n.table.load]⟩

section

variable {r : Rules σ} {n : Nest σ} (h : n.table.WellFormed)
  (hP : r.placement.AlternatesBelow n.bucketCount) (hpick : r.PicksInRange)
  {fingerprint : UInt64} {bucket : Nat}
include h hP hpick

theorem exists_relocate {tried : List Nat} (hand : n.table.Pending fingerprint bucket)
    (full : ∀ place ∈ tried, n.table.slotOf? emptyCell place = none) :
    ∃ o, n.relocate r fingerprint bucket = .ok o ∧ Stores r n fingerprint bucket tried o := by
  obtain ⟨chain, run, chases⟩ := exists_chases hpick r.budget n fingerprint bucket [] h hP hand
  unfold relocate
  rw [run, ok_bind]
  cases chain with
  | settled attempts last => exact ⟨_, rfl, .moved full chases⟩
  | exhausted evictions last =>
    have back : undo evictions last.table = .ok n.table := chases.undo_eq h hP hand rfl
    refine ⟨_, ?_, .gaveUp full chases⟩
    show (undo evictions last.table >>= _) = _
    rw [back]
    rfl

theorem exists_place (inside : bucket < n.table.shape.buckets) (used : fingerprint ≠ emptyCell)
    (fits : n.table.fits fingerprint = true) :
    ∃ o, n.place r fingerprint bucket = .ok o ∧ Stores r n fingerprint bucket [bucket] o := by
  unfold place
  rw [h.put_eq inside used fits, ok_bind]
  cases room : n.table.slotOf? emptyCell bucket with
  | some slot => exact ⟨_, rfl, .atOnce (List.mem_singleton.mpr rfl) room⟩
  | none =>
    refine exists_relocate h hP hpick ⟨inside, used, fits, Table.slotOf?_eq_none_iff.mp room⟩ ?_
    intro place hplace
    rw [List.mem_singleton.mp hplace, room]

omit hP hpick in
theorem exists_locate (r : Rules σ) (key : Key) : ∃ fingerprint, n.locate r key =
      .ok (fingerprint, (r.placement.home key.index n.bucketCount).toNat) ∧
    fingerprint ≠ emptyCell ∧ n.table.fits fingerprint = true := by
  have pos : 1 ≤ min n.table.shape.bits Fingerprint.maxWidth :=
    Nat.le_min.mpr ⟨h.bits_pos, by decide⟩
  obtain ⟨tag, hash, used, small⟩ := Fingerprint.exists_ofHash pos (Nat.min_le_right _ _) key.tag
  refine ⟨tag.toUInt64, ?_, ?_, ?_⟩
  · unfold locate
    rw [hash]
    rfl
  · intro zero
    apply used
    apply UInt32.toNat.inj
    have := congrArg UInt64.toNat zero
    simpa [emptyCell] using this
  · rw [h.fits_iff_lt, UInt32.toNat_toUInt64]
    exact Nat.lt_of_lt_of_le small (Nat.pow_le_pow_right (by decide) (Nat.min_le_left _ _))

theorem exists_insert {key : Key} {home : Nat} (located : n.locate r key = .ok (fingerprint, home))
    (inside : home < n.table.shape.buckets) :
    ∃ o, n.insert r key = .ok o ∧
      Stores r n fingerprint home [home, n.alternate r home fingerprint] o := by
  -- a key is located in one way only
  obtain ⟨fp, located', used, fits⟩ := exists_locate h r key
  obtain ⟨rfl, -⟩ := Prod.mk.inj (Except.ok.inj (located.symm.trans located'))
  have other : n.alternate r home fingerprint < n.table.shape.buckets := hP.partner_lt h _ inside
  unfold insert
  rw [located, ok_bind]
  dsimp only
  rw [h.put_eq inside used fits, ok_bind]
  cases room : n.table.slotOf? emptyCell home with
  | some slot => exact ⟨_, rfl, .atOnce List.mem_cons_self room⟩
  | none =>
    dsimp only [Option.map_none]
    rw [h.put_eq other used fits, ok_bind]
    cases room' : n.table.slotOf? emptyCell (n.alternate r home fingerprint) with
    | some slot =>
      exact ⟨_, rfl, .atOnce (List.mem_cons_of_mem _ (List.mem_singleton.mpr rfl)) room'⟩
    | none =>
      refine exists_relocate h hP hpick ⟨inside, used, fits, Table.slotOf?_eq_none_iff.mp room⟩ ?_
      intro place hplace
      rcases List.mem_cons.mp hplace with rfl | hplace
      · exact room
      · rw [List.mem_singleton.mp hplace, room']

end

/-! ## What every way has in common -/

section

variable {r : Rules σ} {n : Nest σ} {fingerprint : UInt64} {bucket : Nat} {tried : List Nat}

theorem Chases.wellFormed {left : Nat} {trail : List Eviction} {chain : Chain σ}
    (chases : Chases r left n fingerprint bucket trail chain) (h : n.table.WellFormed)
    (hP : r.placement.AlternatesBelow n.bucketCount) (hand : n.table.Pending fingerprint bucket) :
    ∀ {attempts : Nat} {last : Nest σ}, chain = .settled attempts last →
      last.table.WellFormed ∧ last.table.shape = n.table.shape := by
  induction chases with
  | spent => intro attempts last ends; cases ends
  | settles turn room =>
    intro attempts last ends
    cases ends
    have h' := turn.wellFormed h hand
    have free := (Table.slotOf?_eq_some room).1
    exact ⟨h'.store (turn.alternate_lt h hand hP) free _, turn.shape_eq⟩
  | onward turn full _ ih =>
    intro attempts last ends
    have rest := ih (turn.wellFormed h hand) (turn.bucketCount_eq ▸ hP)
      (turn.pending h hand hP full) ends
    exact ⟨rest.1, rest.2.trans turn.shape_eq⟩

theorem Stores.pending (inside : bucket < n.table.shape.buckets) (used : fingerprint ≠ emptyCell)
    (fits : n.table.fits fingerprint = true) (mem : bucket ∈ tried)
    (full : ∀ place ∈ tried, n.table.slotOf? emptyCell place = none) :
    n.table.Pending fingerprint bucket :=
  ⟨inside, used, fits, Table.slotOf?_eq_none_iff.mp (full bucket mem)⟩

theorem Stores.wellFormed {o : Outcome (Nest σ)} (stores : Stores r n fingerprint bucket tried o)
    (h : n.table.WellFormed) (hP : r.placement.AlternatesBelow n.bucketCount)
    (inside : ∀ place ∈ tried, place < n.table.shape.buckets) (used : fingerprint ≠ emptyCell)
    (fits : n.table.fits fingerprint = true) (mem : bucket ∈ tried) :
    o.state.table.WellFormed ∧ o.state.table.shape = n.table.shape := by
  cases stores with
  | atOnce hplace room =>
    exact ⟨h.store (inside _ hplace) (Table.slotOf?_eq_some room).1 _, rfl⟩
  | moved full chases =>
    exact chases.wellFormed h hP (Stores.pending (inside _ mem) used fits mem full) rfl
  | gaveUp => exact ⟨h, rfl⟩

end

end Cuckoo.Nest

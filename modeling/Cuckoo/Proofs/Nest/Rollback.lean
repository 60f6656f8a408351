import Cuckoo.Proofs.Nest.Storing

/-!
# A failed insertion leaves no trace

An insertion that fails has rewritten many cells on the way, some of them more than once. Undone
newest first, with the exact values that the cells held, the evictions leave no trace: words, bits to
spare and count are those from before. Only the generator has moved on, by as many picks as the budget
allows.

Nothing here asks the placement rule to lead back from an alternate bucket. What is needed is that
alternate buckets exist and that picked slots do.
-/

set_option autoImplicit false

namespace Cuckoo.Nest

open Hash Runs

variable {σ : Type}

/-- A fingerprint found no place: the table is the one from before, and as many victims have been
picked as the budget allows. -/
structure GivenUp (r : Rules σ) (before after : Nest σ) : Prop where
  words_eq : after.table.words = before.table.words
  count_eq : after.table.count = before.table.count
  shape_eq : after.table.shape = before.table.shape
  picks : ∃ picks, r.draw before.table.shape.slots r.budget before.picker = .ok (picks, after.picker) ∧
    picks.length = r.budget

theorem GivenUp.table_eq {r : Rules σ} {before after : Nest σ} (given : GivenUp r before after) :
    after.table = before.table := by
  obtain ⟨⟨shape, words, count⟩, _⟩ := after
  obtain ⟨⟨shape', words', count'⟩, _⟩ := before
  obtain ⟨rfl, rfl, rfl, -⟩ := given
  rfl

theorem Stores.givenUp {r : Rules σ} {n : Nest σ} {fingerprint : UInt64} {bucket : Nat}
    {tried : List Nat} {o : Outcome (Nest σ)} (stores : Stores r n fingerprint bucket tried o)
    (failed : o.done = false) : GivenUp r n o.state := by
  cases stores with
  | atOnce => cases failed
  | moved => cases failed
  | gaveUp _ chases =>
    obtain ⟨picks, drawn⟩ := chases.draw_eq rfl
    exact ⟨rfl, rfl, rfl, picks, drawn, r.length_draw _ drawn⟩

/-! ## Placements in turn -/

/-- A sequence of placements that stops has a first one that failed, and ends where this one ended. -/
theorem placeAll_stopped {r : Rules σ} {total : Nat} :
    ∀ {entries : List (Nat × UInt64)} {merged : Nat} {n : Nest σ} {o : Outcome (Nest σ)},
      placeAll r total merged n entries = .ok o → o.done = false →
      ∃ placed bucket fingerprint rest reached events failure,
        entries = placed ++ (bucket, fingerprint) :: rest ∧
        placeAll r total merged n placed = .ok ⟨true, reached, events⟩ ∧
        reached.place r fingerprint bucket = .ok failure ∧ failure.done = false ∧
        o.state = failure.state := by
  intro entries
  induction entries with
  | nil =>
    intro merged n o run stopped
    cases run
    cases stopped
  | cons entry entries ih =>
    intro merged n o run stopped
    obtain ⟨bucket, fingerprint⟩ := entry
    obtain ⟨first, place, run⟩ := bind_eq_ok_iff.mp run
    cases done : first.done with
    | false =>
      -- this is the one, and nothing was placed before it
      rw [done] at run
      cases run
      exact ⟨[], bucket, fingerprint, entries, n, [], first, rfl, rfl, place, done, rfl⟩
    | true =>
      rw [done] at run
      obtain ⟨rest, more, ends⟩ := bind_eq_ok_iff.mp run
      cases ends
      obtain ⟨placed, b, fp, later, reached, events, failure, split, before, failing⟩ :=
        ih more stopped
      refine ⟨(bucket, fingerprint) :: placed, b, fp, later, reached, first.events ++ events, failure,
        by rw [split, List.cons_append], ?_, failing⟩
      rw [placeAll, place, ok_bind, done]
      show (placeAll r total (merged + 1) first.state placed >>= _) = _
      rw [before]
      rfl

def Storable (t : Table) (entries : List (Nat × UInt64)) : Prop :=
  ∀ entry ∈ entries, entry.1 < t.shape.buckets ∧ entry.2 ≠ emptyCell ∧ t.fits entry.2 = true

theorem Storable.of_shape_eq {t u : Table} {entries : List (Nat × UInt64)}
    (h : Storable t entries) (same : u.shape = t.shape) : Storable u entries := by
  intro entry mem
  unfold Table.fits
  rw [same]
  exact h entry mem

theorem storable_entries {t : Table} (h : t.WellFormed) : Storable t t.entries := by
  rintro ⟨bucket, fingerprint⟩ mem
  obtain ⟨inside, held, used⟩ := Table.mem_entries_iff.mp mem
  obtain ⟨slot, -, rfl⟩ := Table.mem_row_iff.mp held
  exact ⟨inside, used, h.fits_cell bucket slot⟩

theorem exists_placeAll {r : Rules σ} (hpick : r.PicksInRange) (total : Nat) :
    ∀ (entries : List (Nat × UInt64)) (merged : Nat) (n : Nest σ), n.table.WellFormed →
      r.placement.AlternatesBelow n.bucketCount → Storable n.table entries →
      ∃ o, placeAll r total merged n entries = .ok o ∧
        o.state.table.WellFormed ∧ o.state.table.shape = n.table.shape := by
  intro entries
  induction entries with
  | nil =>
    intro merged n h _ _
    exact ⟨_, rfl, h, rfl⟩
  | cons entry entries ih =>
    intro merged n h hP storable
    obtain ⟨bucket, fingerprint⟩ := entry
    obtain ⟨inside, used, fits⟩ := storable _ List.mem_cons_self
    obtain ⟨first, place, stores⟩ := exists_place h hP hpick inside used fits
    have kept := stores.wellFormed h hP (by simpa using inside) used fits (by simp)
    rw [placeAll, place, ok_bind]
    cases done : first.done with
    | false => exact ⟨_, rfl, kept⟩
    | true =>
      have later : Storable n.table entries := fun e he => storable e (List.mem_cons_of_mem _ he)
      have count : first.state.bucketCount = n.bucketCount := by
        rw [bucketCount, kept.2, bucketCount]
      obtain ⟨rest, run, h', same⟩ := ih (merged + 1) first.state kept.1 (count ▸ hP)
        (later.of_shape_eq kept.2)
      refine ⟨{ rest with events := first.events ++ rest.events }, ?_, h', same.trans kept.2⟩
      show (placeAll r total (merged + 1) first.state entries >>= _) = _
      rw [run]
      rfl

/-! ## Failure is atomic -/

/-- An insertion that ends has looked into the home bucket, so the bucket exists. -/
theorem home_lt_of_insert {r : Rules σ} {n : Nest σ} {key : Key} {o : Outcome (Nest σ)}
    {fingerprint : UInt64} {home : Nat} (located : n.locate r key = .ok (fingerprint, home))
    (run : n.insert r key = .ok o) : home < n.table.shape.buckets := by
  by_contra outside
  unfold insert at run
  rw [located, ok_bind] at run
  obtain ⟨_, put, _⟩ := bind_eq_ok_iff.mp run
  obtain ⟨_, check, _⟩ := bind_eq_ok_iff.mp put
  unfold Table.checkBucket at check
  rw [if_neg outside] at check
  cases check

/-- **A failed insertion is atomic**, and so is the one placement at which a merge stops: the table is
bit for bit the one from before, and exactly as many victims have been picked as the budget allows.

An insertion is sure to end when the home bucket of its key exists, a merge when the other table has
the same dimensions. -/
theorem failure_is_atomic (r : Rules σ) (hpick : r.PicksInRange) (n : Nest σ)
    (h : n.table.WellFormed) (hP : r.placement.AlternatesBelow n.bucketCount) :
    (∀ key : Key,
      (r.placement.home key.index n.bucketCount < n.bucketCount → ∃ o, n.insert r key = .ok o) ∧
      ∀ o, n.insert r key = .ok o → o.done = false → GivenUp r n o.state) ∧
    ∀ other : Table, other.WellFormed → other.shape = n.table.shape →
      ∃ o, n.merge r other = .ok o ∧ (o.done = false →
        ∃ placed bucket fingerprint rest reached events failure,
          other.entries = placed ++ (bucket, fingerprint) :: rest ∧
          placeAll r other.count 0 n placed = .ok ⟨true, reached, events⟩ ∧
          reached.place r fingerprint bucket = .ok failure ∧ failure.done = false ∧
          o.state = failure.state ∧ GivenUp r reached failure.state) := by
  constructor
  · intro key
    obtain ⟨fingerprint, located, -⟩ := exists_locate h r key
    constructor
    · intro below
      rw [UInt64.lt_iff_toNat_lt, bucketCount, Placement.toNat_bucketCount h] at below
      obtain ⟨o, run, -⟩ := exists_insert h hP hpick located below
      exact ⟨o, run⟩
    · intro o run failed
      obtain ⟨o', run', stores⟩ :=
        exists_insert h hP hpick located (home_lt_of_insert located run)
      cases run.symm.trans run'
      exact stores.givenUp failed
  · intro other ho same
    have storable : Storable n.table other.entries := (storable_entries ho).of_shape_eq same.symm
    obtain ⟨o, run, -⟩ := exists_placeAll hpick other.count other.entries 0 n h hP storable
    refine ⟨o, run, ?_⟩
    intro stopped
    obtain ⟨placed, bucket, fingerprint, rest, reached, events, failure, split, before, place,
      failing, ends⟩ := placeAll_stopped run stopped
    refine ⟨placed, bucket, fingerprint, rest, reached, events, failure, split, before, place,
      failing, ends, ?_⟩
    -- the placement that failed began in a nest that is as sound as the first one
    rw [split] at storable
    have front : Storable n.table placed := fun e he => storable e (List.mem_append_left _ he)
    obtain ⟨_, before', h', same'⟩ := exists_placeAll hpick other.count placed 0 n h hP front
    cases before.symm.trans before'
    have count : reached.bucketCount = n.bucketCount := by
      rw [bucketCount, same', bucketCount]
    obtain ⟨inside, used, fits⟩ := storable.of_shape_eq same' (bucket, fingerprint)
      (List.mem_append_right _ List.mem_cons_self)
    obtain ⟨_, place', stores⟩ := exists_place h' (count ▸ hP) hpick inside used fits
    cases place.symm.trans place'
    exact stores.givenUp failing

/-- Every fingerprint belongs into bucket 0, so alternate buckets do not lead back. -/
def oneWay : Rules Nat where
  placement := ⟨fun _ _ => 0, fun _ _ _ => 0, fun _ => .ok (), .ok⟩
  pick s slots := .ok (s % slots, s + 1)
  budget := 3

theorem oneWay_picksInRange : oneWay.PicksInRange :=
  fun s slots pos => ⟨s % slots, s + 1, rfl, Nat.mod_lt _ pos⟩

def crowded : Nest Nat := ⟨⟨⟨2, 2, 8⟩, #[0x0201], 2⟩, 0⟩

theorem crowded_alternatesBelow : oneWay.placement.AlternatesBelow crowded.bucketCount := by
  intro bucket fingerprint _
  show (0 : UInt64) < 2
  decide

/-- Neither a key nor another table finds room in a full bucket that is its own alternate. -/
theorem crowded_untouched :
    (∃ o, crowded.insert oneWay ⟨5, 7⟩ = .ok o ∧ o.done = false ∧ GivenUp oneWay crowded o.state) ∧
    ∃ o, crowded.merge oneWay crowded.table = .ok o ∧ o.done = false ∧
      ∃ reached, GivenUp oneWay reached o.state := by
  obtain ⟨insertion, merging⟩ := failure_is_atomic oneWay oneWay_picksInRange crowded
    ⟨rfl, rfl, rfl⟩ crowded_alternatesBelow
  constructor
  · obtain ⟨o, run, failed⟩ : ∃ o, crowded.insert oneWay ⟨5, 7⟩ = .ok o ∧ o.done = false :=
      ⟨_, rfl, rfl⟩
    exact ⟨o, run, failed, (insertion ⟨5, 7⟩).2 o run failed⟩
  · obtain ⟨o, run, stopped⟩ := merging crowded.table ⟨rfl, rfl, rfl⟩ rfl
    have failed : (crowded.merge oneWay crowded.table).map (·.done) = .ok false := rfl
    rw [run] at failed
    have failed : o.done = false := Except.ok.inj failed
    obtain ⟨_, _, _, _, reached, _, failure, _, _, _, _, same, given⟩ := stopped failed
    exact ⟨o, run, failed, reached, same ▸ given⟩

end Cuckoo.Nest

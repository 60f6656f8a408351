import Cuckoo.Proofs.Nest.Deleting

/-!
# Insertions in any order

Where a fingerprint ends up depends on what came before it, on the victims that were picked and on how
many evictions were allowed. None of this can be asked of a nest: **it answers by the copies of a class,
and these only depend on what was inserted** (`Even`). So two nests that took in the same keys in
different orders, by different pickers and with different budgets, cannot be told apart by lookups and
deletions.

If every bucket has room for all keys whose home bucket it is, then each of them is put there, in every
order, and the tables are equal.
-/

set_option autoImplicit false

namespace Cuckoo.Nest

open Hash Runs

/-- Adds keys one by one, whether or not there is room. The outcome tells whether there was room for all
of them. -/
def insertEach {σ : Type} (r : Rules σ) (n : Nest σ) : List Key → Checked (Outcome (Nest σ))
  | [] => pure ⟨true, n, []⟩
  | key :: keys => do
    let first ← n.insert r key
    let rest ← insertEach r first.state keys
    pure ⟨first.done && rest.done, rest.state, first.events ++ rest.events⟩

/-- The home bucket of a key. -/
def home {σ : Type} (r : Rules σ) (n : Nest σ) (key : Key) : Nat :=
  (r.placement.home key.index n.bucketCount).toNat

theorem home_eq {σ : Type} {r : Rules σ} {n : Nest σ} {key : Key} {fingerprint : UInt64} {bucket : Nat}
    (located : n.locate r key = .ok (fingerprint, bucket)) : n.home r key = bucket := by
  obtain ⟨_, -, located⟩ := bind_eq_ok_iff.mp located
  cases located
  rfl

/-! ## As many copies of every class -/

/-- Two nests under the same placement rule have as many copies of every class of fingerprints. -/
structure Even {σ τ : Type} (r : Rules σ) (r' : Rules τ) (n : Nest σ) (n' : Nest τ) : Prop where
  placement : r'.placement = r.placement
  shape_eq : n'.table.shape = n.table.shape
  left : n.Sound r
  right : n'.Sound r'
  copies_eq : ∀ {v c}, v ≠ emptyCell → c < n.table.shape.buckets →
    n'.table.copies r'.placement v c = n.table.copies r.placement v c

section

variable {σ τ : Type} {r : Rules σ} {r' : Rules τ} {n : Nest σ} {n' : Nest τ}
  (even : Even r r' n n') (hP : r.placement.Lawful)
include even hP

theorem Even.exists_contains (key : Key) :
    ∃ found, n.contains r key = .ok found ∧ n'.contains r' key = .ok found := by
  obtain ⟨fingerprint, bucket, located, inside, used, -⟩ := even.left.exists_locate hP key
  have located' := (locate_eq_of even.placement even.shape_eq key).trans located
  refine ⟨_, even.left.contains_eq hP located, ?_⟩
  rw [even.right.contains_eq (even.placement ▸ hP) located', even.copies_eq used inside]

/-- Both have a copy to delete or neither has, and they still have as many of every class. -/
theorem Even.exists_erase (key : Key) : ∃ found m m', n.erase r key = .ok (found, m) ∧
    n'.erase r' key = .ok (found, m') ∧ Even r r' m m' := by
  obtain ⟨found, m, deletes⟩ := even.left.exists_deletes hP key
  obtain ⟨found', m', deletes'⟩ := even.right.exists_deletes (even.placement ▸ hP) key
  have classes := inClass_eq_of even.placement even.shape_eq
  -- both look for a copy of the class of the key
  have same : found' = found := by
    obtain ⟨fingerprint, bucket, located, inside, used, -⟩ := even.left.exists_locate hP key
    have own := inClass_self located
    rw [Bool.eq_iff_iff, deletes.found_iff inside own,
      deletes'.found_iff (even.shape_eq ▸ inside) (by rw [classes, own]),
      even.copies_eq used inside]
  subst same
  refine ⟨found', m, m', deletes.run, deletes'.run, even.placement, ?_, deletes.sound, deletes'.sound, ?_⟩
  · rw [deletes.shape_eq, deletes'.shape_eq, even.shape_eq]
  · intro v c hv hc
    rw [deletes.shape_eq] at hc
    rw [deletes.copies_eq hv hc, deletes'.copies_eq hv (even.shape_eq ▸ hc), classes,
      even.copies_eq hv hc]

end

theorem Even.exists_erasures {σ τ : Type} {r : Rules σ} {r' : Rules τ} (hP : r.placement.Lawful) :
    ∀ (keys : List Key) {n : Nest σ} {n' : Nest τ}, Even r r' n n' → ∃ answers m m',
      n.accessAll r (keys.map .erase) = .ok (answers, m) ∧
      n'.accessAll r' (keys.map .erase) = .ok (answers, m') ∧ Even r r' m m' := by
  intro keys
  induction keys with
  | nil =>
    intro n n' even
    exact ⟨[], n, n', rfl, rfl, even⟩
  | cons key keys ih =>
    intro n n' even
    obtain ⟨found, m, m', run, run', even'⟩ := even.exists_erase hP key
    obtain ⟨answers, l, l', more, more', even''⟩ := ih even'
    exact ⟨found :: answers, l, l', accessAll_cons (a := .erase key) run more,
      accessAll_cons (a := .erase key) run' more', even''⟩

/-! ## Many insertions -/

section

variable {σ : Type} {r : Rules σ} (hP : r.placement.Lawful)
include hP

/-- Insertions that all succeed raise the count of every class by the number of its keys. -/
theorem Sound.exists_insertEach (hpick : r.PicksInRange) : ∀ (keys : List Key) {n : Nest σ}, n.Sound r →
    ∃ o, n.insertEach r keys = .ok o ∧ o.state.Sound r ∧ o.state.table.shape = n.table.shape ∧
      (o.done = true → ∀ v c, v ≠ emptyCell → c < n.table.shape.buckets →
        o.state.table.copies r.placement v c =
          n.table.copies r.placement v c + keys.countP (n.inClass r v c)) := by
  intro keys
  induction keys with
  | nil =>
    intro n s
    exact ⟨_, rfl, s, rfl, fun _ _ _ _ _ => rfl⟩
  | cons key keys ih =>
    intro n s
    obtain ⟨first, run, s₁, same, counts⟩ := s.insert_copies hP hpick key
    obtain ⟨rest, more, s₂, same', counts'⟩ := ih s₁
    refine ⟨⟨first.done && rest.done, rest.state, first.events ++ rest.events⟩, ?_, s₂,
      same'.trans same, ?_⟩
    · rw [insertEach, run, ok_bind, more]
      rfl
    · intro done v c hv hc
      obtain ⟨one, others⟩ := Bool.and_eq_true_iff.mp done
      have raised := counts v c hv hc
      have classes : first.state.inClass r v c = n.inClass r v c := inClass_eq_of rfl same v c
      rw [one, Bool.true_and] at raised
      rw [counts' others v c hv (same ▸ hc), raised, classes, List.countP_cons]
      omega

end

/-! ## Room at home -/

/-- Every bucket has an empty cell for each key whose home bucket it is. -/
def RoomAtHome {σ : Type} (r : Rules σ) (n : Nest σ) (keys : List Key) : Prop :=
  ∀ bucket < n.table.shape.buckets,
    keys.countP (fun key => n.home r key = bucket) ≤ (n.table.row bucket).count emptyCell

/-- What a key adds to the entries of a nest if it is put into its home bucket. -/
def deposit {σ : Type} (r : Rules σ) (n : Nest σ) (stock : Multiset (Nat × UInt64)) (key : Key) :
    Multiset (Nat × UInt64) :=
  match n.locate r key with
  | .ok (fingerprint, bucket) => (bucket, fingerprint) ::ₘ stock
  | .error _ => stock

theorem deposit_comm {σ : Type} (r : Rules σ) (n : Nest σ) (key key' : Key)
    (stock : Multiset (Nat × UInt64)) :
    n.deposit r (n.deposit r stock key) key' = n.deposit r (n.deposit r stock key') key := by
  unfold deposit
  cases n.locate r key <;> cases n.locate r key' <;> first | rfl | exact Multiset.cons_swap _ _ _

theorem deposit_eq_of {σ τ : Type} {r : Rules σ} {r' : Rules τ} {n : Nest σ} {n' : Nest τ}
    (placement : r'.placement = r.placement) (same : n'.table.shape = n.table.shape) :
    n'.deposit r' = n.deposit r := by
  funext stock key
  unfold deposit
  rw [locate_eq_of placement same]

theorem home_eq_of {σ τ : Type} {r : Rules σ} {r' : Rules τ} {n : Nest σ} {n' : Nest τ}
    (placement : r'.placement = r.placement) (same : n'.table.shape = n.table.shape) :
    n'.home r' = n.home r := by
  funext key
  unfold home bucketCount
  rw [placement, same]

section

variable {σ : Type} {r : Rules σ} (hP : r.placement.Lawful)
include hP

/-- A key whose home bucket has an empty cell is put there, and takes that cell. -/
theorem Sound.insert_at_home {n : Nest σ} (s : n.Sound r) {key : Key}
    (free : emptyCell ∈ n.table.row (n.home r key)) :
    ∃ table, n.insert r key = .ok ⟨true, { n with table }, []⟩ ∧
      Sound r { n with table } ∧ table.shape = n.table.shape ∧
      (table.entries : Multiset (Nat × UInt64)) = n.deposit r n.table.entries key ∧
      ∀ bucket, (table.row bucket).count emptyCell + (if n.home r key = bucket then 1 else 0) =
        (n.table.row bucket).count emptyCell := by
  obtain ⟨fingerprint, bucket, located, inside, used, fits⟩ := s.exists_locate hP key
  rw [home_eq located] at free ⊢
  obtain ⟨slot, found⟩ := Option.isSome_iff_exists.mp (Table.isSome_slotOf?_iff.mpr free)
  obtain ⟨hs, empty⟩ := Table.slotOf?_eq_some found
  refine ⟨n.table.store bucket slot fingerprint, ?_, ?_, rfl, ?_, ?_⟩
  · refine s.insert_eq_of_room hP located ?_
    rw [Table.replaceIn, List.findSome?_cons, found]
    rfl
  · exact s.of_shape_eq (s.wellFormed.store inside hs fingerprint) rfl
  · have fill := s.wellFormed.entries_fill inside hs empty used fits
    unfold deposit
    rw [located]
    exact Multiset.coe_eq_coe.mpr fill
  · intro other
    rw [s.wellFormed.row_store inside hs, (s.wellFormed.fits_iff fingerprint).mp fits]
    by_cases same : bucket = other
    · subst same
      have swap := (perm_cons_set (l := n.table.row bucket) (by simpa using hs) fingerprint).count_eq
        emptyCell
      rw [Table.getElem_row, empty, List.count_cons_self, List.count_cons_of_ne used] at swap
      rw [if_pos rfl, if_pos rfl, swap]
    · rw [if_neg (Ne.symm same), if_neg same, Nat.add_zero]

/-- **Where there is room at home, every insertion takes it**: none fails and none makes another one
move. -/
theorem Sound.insertEach_at_home : ∀ (keys : List Key) {n : Nest σ}, n.Sound r → n.RoomAtHome r keys →
    ∃ table, n.insertEach r keys = .ok ⟨true, { n with table }, []⟩ ∧ table.WellFormed ∧
      table.shape = n.table.shape ∧
      (table.entries : Multiset (Nat × UInt64)) = keys.foldl (n.deposit r) n.table.entries := by
  intro keys
  induction keys with
  | nil =>
    intro n s _
    exact ⟨n.table, rfl, s.wellFormed, rfl, rfl⟩
  | cons key keys ih =>
    intro n s room
    have inside : n.home r key < n.table.shape.buckets := by
      obtain ⟨fingerprint, bucket, located, inside, -⟩ := s.exists_locate hP key
      rwa [home_eq located]
    have free : emptyCell ∈ n.table.row (n.home r key) := by
      refine List.count_pos_iff.mp (Nat.lt_of_lt_of_le ?_ (room _ inside))
      rw [List.countP_cons, if_pos (by simp)]
      exact Nat.succ_pos _
    obtain ⟨table, run, s₁, same, entries, left⟩ := s.insert_at_home hP free
    have homes : Nest.home r { n with table } = n.home r := home_eq_of rfl same
    have room' : RoomAtHome r { n with table } keys := by
      intro bucket hb
      have before := room bucket (same ▸ hb)
      have taken := left bucket
      rw [List.countP_cons] at before
      rw [homes]
      simp only [decide_eq_true_eq] at before
      show _ ≤ (table.row bucket).count emptyCell
      omega
    obtain ⟨last, more, h, same', entries'⟩ := ih s₁ room'
    refine ⟨last, ?_, h, same'.trans same, ?_⟩
    · rw [insertEach, run, ok_bind]
      show (insertEach r { n with table } keys >>= _) = _
      rw [more]
      rfl
    · have deposits : deposit r { n with table } = n.deposit r := deposit_eq_of rfl same
      rw [entries', deposits, List.foldl_cons, entries]

end

/-- **The order of insertions cannot be seen.** Two nests that begin with the same table and are to take in
the same keys in different orders, whichever way their victims are picked and however many evictions they
are allowed, answer every lookup and any sequence of deletions alike, if both found room for every key. If
every bucket has an empty cell for each key whose home bucket it is, they do find room, evict nothing, and
their tables are equal. -/
theorem insertion_order_unseen {σ τ : Type} (r : Rules σ) (r' : Rules τ)
    (placement : r'.placement = r.placement) (hP : r.placement.Lawful) (hpick : r.PicksInRange)
    (hpick' : r'.PicksInRange) (t : Table) (p : σ) (p' : τ) (s : Nest.Sound r ⟨t, p⟩)
    {keys keys' : List Key} (perm : keys.Perm keys') :
    ∃ o o', insertEach r ⟨t, p⟩ keys = .ok o ∧ insertEach r' ⟨t, p'⟩ keys' = .ok o' ∧
      (o.done = true → o'.done = true →
        (∀ key, ∃ found, o.state.contains r key = .ok found ∧
          o'.state.contains r' key = .ok found) ∧
        ∀ erased : List Key, ∃ answers m m',
          o.state.accessAll r (erased.map .erase) = .ok (answers, m) ∧
          o'.state.accessAll r' (erased.map .erase) = .ok (answers, m')) ∧
      ((∀ bucket < t.shape.buckets, keys.countP (fun key => home r ⟨t, p⟩ key = bucket) ≤
          (t.row bucket).count emptyCell) →
        o.done = true ∧ o'.done = true ∧ o.events = [] ∧ o'.events = [] ∧
        o.state.picker = p ∧ o'.state.picker = p' ∧ (o.state.table == o'.state.table) = true) := by
  have s' : Nest.Sound r' ⟨t, p'⟩ := ⟨s.wellFormed, placement ▸ s.accepts⟩
  have hP' : r'.placement.Lawful := placement ▸ hP
  obtain ⟨o, run, sound, same, counts⟩ := s.exists_insertEach hP hpick keys
  obtain ⟨o', run', sound', same', counts'⟩ := s'.exists_insertEach hP' hpick' keys'
  refine ⟨o, o', run, run', ?_, ?_⟩
  · intro done done'
    have even : Even r r' o.state o'.state := by
      refine ⟨placement, same'.trans same.symm, sound, sound', ?_⟩
      intro v c hv hc
      rw [same] at hc
      have classes : inClass r' ⟨t, p'⟩ v c = inClass r ⟨t, p⟩ v c := inClass_eq_of placement rfl v c
      rw [counts done v c hv hc, counts' done' v c hv hc, perm.countP_eq, placement, classes]
    refine ⟨even.exists_contains hP, fun erased => ?_⟩
    obtain ⟨answers, m, m', erase, erase', -⟩ := Even.exists_erasures hP erased even
    exact ⟨answers, m, m', erase, erase'⟩
  · intro room
    have room' : RoomAtHome r' ⟨t, p'⟩ keys' := by
      intro bucket hb
      rw [home_eq_of (n := ⟨t, p⟩) placement rfl, ← perm.countP_eq]
      exact room bucket hb
    obtain ⟨table, at_home, h, shape, entries⟩ := s.insertEach_at_home hP keys room
    obtain ⟨table', at_home', h', shape', entries'⟩ := s'.insertEach_at_home hP' keys' room'
    cases run.symm.trans at_home
    cases run'.symm.trans at_home'
    refine ⟨rfl, rfl, rfl, rfl, rfl, rfl, ?_⟩
    refine (Table.beq_iff_alike h h').mpr (Table.alike_of_entries_perm (shape'.trans shape.symm) ?_)
    refine Multiset.coe_eq_coe.mp ?_
    rw [entries, entries', deposit_eq_of (n := ⟨t, p⟩) placement rfl]
    exact perm.foldl_eq' (fun key _ key' _ stock => deposit_comm r ⟨t, p⟩ key key' stock) _

/-- Placement by exclusive or, with victims from the last slot. -/
def lastSlot : Rules Unit where
  placement := Placement.xor
  pick s slots := .ok (slots - 1, s)
  budget := 5

/-- Two keys whose home bucket is full, added in either order with different pickers and budgets: different
tables, and no answer by which to tell. Two keys whose home bucket is empty make the same table. -/
theorem stocked_in_either_order :
    (∃ o o', insertEach byTurns stocked [⟨0, 7⟩, ⟨0, 1⟩] = .ok o ∧
      insertEach lastSlot ⟨stocked.table, ()⟩ [⟨0, 1⟩, ⟨0, 7⟩] = .ok o' ∧
      o.events = [.relocated 2] ∧ o'.events = [.relocated 1] ∧
      o.state.table.residents 1 = [1] ∧ o'.state.table.residents 1 = [] ∧
      (∀ key, ∃ found, o.state.contains byTurns key = .ok found ∧
        o'.state.contains lastSlot key = .ok found) ∧
      ∀ erased : List Key, ∃ answers m m',
        o.state.accessAll byTurns (erased.map .erase) = .ok (answers, m) ∧
        o'.state.accessAll lastSlot (erased.map .erase) = .ok (answers, m')) ∧
    ∃ o o', insertEach byTurns stocked [⟨1, 7⟩, ⟨1, 1⟩] = .ok o ∧
      insertEach lastSlot ⟨stocked.table, ()⟩ [⟨1, 1⟩, ⟨1, 7⟩] = .ok o' ∧
      (o.state.table == o'.state.table) = true := by
  have orders := fun key key' : Key => insertion_order_unseen byTurns lastSlot rfl Placement.xor_lawful
    byTurns_picksInRange (fun s slots pos => ⟨slots - 1, s, rfl, Nat.sub_one_lt_of_lt pos⟩)
    stocked.table 0 () stocked_sound (List.Perm.swap key' key [])
  constructor
  · obtain ⟨o, o', run, run', unseen, -⟩ := orders ⟨0, 7⟩ ⟨0, 1⟩
    have mine : (insertEach byTurns stocked [⟨0, 7⟩, ⟨0, 1⟩]).map
        (fun o => (o.done, o.events, o.state.table.residents 1)) =
          .ok (true, [.relocated 2], [1]) := rfl
    have theirs : (insertEach lastSlot ⟨stocked.table, ()⟩ [⟨0, 1⟩, ⟨0, 7⟩]).map
        (fun o => (o.done, o.events, o.state.table.residents 1)) =
          .ok (true, [.relocated 1], []) := rfl
    rw [show insertEach byTurns stocked _ = _ from run] at mine
    rw [run'] at theirs
    simp only [Except.map, Except.ok.injEq, Prod.mk.injEq] at mine theirs
    obtain ⟨done, events, residents⟩ := mine
    obtain ⟨done', events', residents'⟩ := theirs
    obtain ⟨lookups, deletions⟩ := unseen done done'
    exact ⟨o, o', run, run', events, events', residents, residents', lookups, deletions⟩
  · obtain ⟨o, o', run, run', -, equal⟩ := orders ⟨1, 7⟩ ⟨1, 1⟩
    obtain ⟨-, -, -, -, -, -, same⟩ := equal (by decide)
    exact ⟨o, o', run, run', same⟩

end Cuckoo.Nest

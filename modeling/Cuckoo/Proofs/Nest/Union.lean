import Cuckoo.Proofs.Nest.Counting
import Cuckoo.Proofs.Nest.Rollback

/-!
# Merging is the union of multisets

A merge places the entries of another table one by one, each in the bucket where it is there, which
may be the home bucket of its object or the alternate one. **For the counts of the classes this makes
no difference**: placing an entry adds it to its class. What a merge does is therefore said by the
list of the entries that it has placed, all of them or those before the first that found no place.
-/

set_option autoImplicit false

namespace Cuckoo.Nest

open Hash Runs

variable {σ : Type} {r : Rules σ}

/-- The entries have been added, each to its class, and nothing else has changed. -/
structure TakesIn (r : Rules σ) (n : Nest σ) (entries : List (Nat × UInt64)) (n' : Nest σ) :
    Prop where
  sound : n'.Sound r
  shape_eq : n'.table.shape = n.table.shape
  copies_eq : ∀ v c, v ≠ emptyCell → c < n.table.shape.buckets →
    n'.table.copies r.placement v c =
      n.table.copies r.placement v c + entries.countP (r.placement.belongs n.table.shape v c)
  count_eq : n'.table.count = n.table.count + entries.length

theorem TakesIn.of_table_eq {n reached n' : Nest σ} {entries : List (Nat × UInt64)}
    (taken : TakesIn r n entries reached) (same : n'.table = reached.table) :
    TakesIn r n entries n' := by
  refine ⟨?_, ?_, ?_, ?_⟩
  · exact taken.sound.of_shape_eq (same ▸ taken.sound.wellFormed) (congrArg Table.shape same)
  · rw [same, taken.shape_eq]
  · rw [same]
    exact taken.copies_eq
  · rw [same, taken.count_eq]

/-- A merge has come to an end: with every entry of the other table, or with the entries before the
first one that found no place within the budget. -/
structure Unites (r : Rules σ) (n : Nest σ) (other : Table) (o : Outcome (Nest σ)) : Prop where
  complete : o.done = true →
    (∀ v c, v ≠ emptyCell → c < n.table.shape.buckets →
      o.state.table.copies r.placement v c =
        n.table.copies r.placement v c + other.copies r.placement v c) ∧
    o.state.table.count = n.table.count + other.count ∧
    ∀ key, ∃ mine theirs, n.contains r key = .ok mine ∧
      ({ n with table := other } : Nest σ).contains r key = .ok theirs ∧
      o.state.contains r key = .ok (mine || theirs)
  stopped : o.done = false → ∃ placed bucket fingerprint rest reached events failure,
    other.entries = placed ++ (bucket, fingerprint) :: rest ∧
    placeAll r other.count 0 n placed = .ok ⟨true, reached, events⟩ ∧
    reached.place r fingerprint bucket = .ok failure ∧ failure.done = false ∧
    o.state = failure.state ∧ GivenUp r reached o.state ∧ TakesIn r n placed o.state

theorem Unites.takesIn_of_stopped {n : Nest σ} {other : Table} {o : Outcome (Nest σ)}
    (unites : Unites r n other o) (stopped : o.done = false) :
    ∃ placed, TakesIn r n placed o.state := by
  obtain ⟨placed, _, _, _, _, _, _, _, _, _, _, _, _, taken⟩ := unites.stopped stopped
  exact ⟨placed, taken⟩

section

variable (hP : r.placement.Lawful) (hpick : r.PicksInRange)
include hP hpick

theorem Sound.placeAll_countP {total : Nat} :
    ∀ {entries : List (Nat × UInt64)} {merged : Nat} {n : Nest σ} {o : Outcome (Nest σ)},
      n.Sound r → Storable n.table entries →
      placeAll r total merged n entries = .ok o → o.done = true →
      ∀ {p : Nat × UInt64 → Bool}, r.placement.Blind n.table.shape p →
        o.state.table.entries.countP p = n.table.entries.countP p + entries.countP p := by
  -- on the entries; a failed placement ends the run, and this run has not failed
  intro entries
  induction entries with
  | nil =>
    intro merged n o s _ run _ p _
    cases run
    rfl
  | cons entry entries ih =>
    intro merged n o s storable run ended p blind
    obtain ⟨bucket, fingerprint⟩ := entry
    obtain ⟨inside, used, fits⟩ := storable _ List.mem_cons_self
    have below := s.alternatesBelow hP
    obtain ⟨first, place, stores⟩ := exists_place s.wellFormed below hpick inside used fits
    rw [placeAll, place, ok_bind] at run
    cases done : first.done with
    | false =>
      rw [done] at run
      cases run
      cases ended
    | true =>
      rw [done] at run
      obtain ⟨rest, more, ends⟩ := bind_eq_ok_iff.mp run
      cases ends
      have own : ∀ place ∈ [bucket], place = bucket ∨ place = n.alternate r bucket fingerprint :=
        fun place mem => Or.inl (List.mem_singleton.mp mem)
      have here := List.mem_singleton.mpr (rfl : bucket = bucket)
      have one := stores.countP_eq s.wellFormed below inside used fits here own blind
      have kept := stores.wellFormed s.wellFormed below (by simpa using inside) used fits here
      have later : Storable n.table entries := fun e he => storable e (List.mem_cons_of_mem _ he)
      have others := ih (s.of_shape_eq kept.1 kept.2) (later.of_shape_eq kept.2) more ended
        (kept.2.symm ▸ blind)
      rw [done, Bool.true_and] at one
      show rest.state.table.entries.countP p = _
      rw [others, one, List.countP_cons, Nat.add_assoc, Nat.add_comm (entries.countP p)]

theorem Sound.takesIn {total merged : Nat} {entries : List (Nat × UInt64)} {n : Nest σ}
    {o : Outcome (Nest σ)} (s : n.Sound r) (storable : Storable n.table entries)
    (run : placeAll r total merged n entries = .ok o) (ended : o.done = true) :
    TakesIn r n entries o.state := by
  obtain ⟨o', run', h', same⟩ :=
    exists_placeAll hpick total entries merged n s.wellFormed (s.alternatesBelow hP) storable
  cases run.symm.trans run'
  have s' := s.of_shape_eq h' same
  refine ⟨s', same, ?_, ?_⟩
  · intro v c hv hc
    have counts := s.placeAll_countP hP hpick storable run ended (s.blind hP v hc)
    have after := s'.countP_belongs hP hv (same ▸ hc)
    rw [same] at after
    rw [← after, counts, s.countP_belongs hP hv hc]
  · -- the number of entries is the count of the property that all of them have
    have counts := s.placeAll_countP hP hpick storable run ended (p := fun _ => true)
      fun _ _ _ => rfl
    simp only [List.countP_true] at counts
    rw [h'.count_eq, counts, s.wellFormed.count_eq]

/-- **A merge with a table of the same dimensions ends, and unites the two tables** or stops at the
first entry without a place. -/
theorem Sound.exists_merge {n : Nest σ} (s : n.Sound r) {other : Table} (ho : other.WellFormed)
    (same : other.shape = n.table.shape) :
    ∃ o, n.merge r other = .ok o ∧ o.state.Sound r ∧ o.state.table.shape = n.table.shape ∧
      Unites r n other o := by
  have below := s.alternatesBelow hP
  have storable : Storable n.table other.entries := (storable_entries ho).of_shape_eq same.symm
  obtain ⟨o, run, h', same'⟩ :=
    exists_placeAll hpick other.count other.entries 0 n s.wellFormed below storable
  refine ⟨o, run, s.of_shape_eq h' same', same', ?_, ?_⟩
  · intro ended
    have taken := s.takesIn hP hpick storable run ended
    have theirs : ({ n with table := other } : Nest σ).Sound r := s.of_shape_eq ho same
    have sums : ∀ v c, v ≠ emptyCell → c < n.table.shape.buckets →
        o.state.table.copies r.placement v c =
          n.table.copies r.placement v c + other.copies r.placement v c := by
      intro v c hv hc
      have counts := theirs.countP_belongs hP hv (same.symm ▸ hc)
      dsimp only at counts
      rw [same] at counts
      rw [taken.copies_eq v c hv hc, counts]
    refine ⟨sums, ?_, ?_⟩
    · rw [taken.count_eq, ho.count_eq]
    · intro key
      obtain ⟨fingerprint, home, located, inside, used, -⟩ := s.exists_locate hP key
      have located' := (locate_of_shape_eq r same' key).trans located
      have located'' : ({ n with table := other } : Nest σ).locate r key = .ok (fingerprint, home) :=
        (locate_of_shape_eq r same key).trans located
      refine ⟨_, _, s.contains_eq hP located, theirs.contains_eq hP located'', ?_⟩
      rw [taken.sound.contains_eq hP located', sums _ _ used inside, Bool.or_eq_decide]
      congr 1
      rw [decide_eq_decide, decide_eq_true_iff, decide_eq_true_iff]
      exact Nat.add_pos_iff_pos_or_pos
  · intro stopped
    obtain ⟨placed, bucket, fingerprint, rest, reached, events, failure, split, before, place,
      failing, ends⟩ := placeAll_stopped run stopped
    rw [split] at storable
    have front : Storable n.table placed := fun e he => storable e (List.mem_append_left _ he)
    have taken := s.takesIn hP hpick front before rfl
    obtain ⟨inside, used, fits⟩ := storable.of_shape_eq taken.shape_eq (bucket, fingerprint)
      (List.mem_append_right _ List.mem_cons_self)
    obtain ⟨_, place', stores⟩ := exists_place taken.sound.wellFormed
      (taken.sound.alternatesBelow hP) hpick inside used fits
    cases place.symm.trans place'
    have given : GivenUp r reached o.state := ends ▸ stores.givenUp failing
    exact ⟨placed, bucket, fingerprint, rest, reached, events, failure, split, before, place,
      failing, ends, given, taken.of_table_eq given.table_eq⟩

end

end Cuckoo.Nest

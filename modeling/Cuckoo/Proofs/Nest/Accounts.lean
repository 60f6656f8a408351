import Cuckoo.Proofs.Nest.Counting
import Cuckoo.Proofs.Nest.Draws
import Cuckoo.Proofs.Nest.Script

/-!
# What the events say

An insertion reports how its chain of evictions ended, and nothing if there was no need for one. This
file ties the report to what happened. The chain is looked at without its exits: `Hand.after` makes
one eviction after the other and never looks for room. **The loop stops at the first of these that
leads to a bucket with room**, and reports its number, or it is spent and reports the budget
(`Chases.ends`).

A merge reports what its placements report, in their order, and then whether it stopped. Its numbers
are those of the fingerprints that were taken in and of those that were not.
-/

set_option autoImplicit false

namespace Cuckoo

open Hash Runs

variable {σ : Type}

/-! ## Evictions that never look for room -/

/-- A fingerprint in hand, and the bucket that it is meant for. -/
structure Hand (σ : Type) where
  nest : Nest σ
  fingerprint : UInt64
  bucket : Nat

namespace Hand

/-- Puts the fingerprint into a picked slot of the bucket. Then the victim is in hand, and meant for
its alternate bucket. -/
def evict (r : Rules σ) (hand : Hand σ) : Checked (Hand σ) := do
  let (e, next) ← hand.nest.evict r hand.fingerprint hand.bucket
  pure ⟨next, e.victim, hand.nest.alternate r hand.bucket e.victim⟩

def after (r : Rules σ) (hand : Hand σ) : (evictions : Nat) → Checked (Hand σ)
  | 0 => pure hand
  | evictions + 1 => do
    let hand ← hand.after r evictions
    hand.evict r

/-- Does the bucket have an empty slot? -/
def HasRoom (hand : Hand σ) : Prop := emptyCell ∈ hand.nest.table.row hand.bucket

/-- After so many evictions there is no room for the victim. -/
def StuckAt (r : Rules σ) (hand : Hand σ) (evictions : Nat) : Prop :=
  ∃ reached, hand.after r evictions = .ok reached ∧ ¬ reached.HasRoom

/-- After so many evictions there is room for the victim, and with the victim stored there the nest is
the given one. -/
def SettlesAt (r : Rules σ) (hand : Hand σ) (evictions : Nat) (last : Nest σ) : Prop :=
  ∃ reached, hand.after r evictions = .ok reached ∧ reached.HasRoom ∧
    reached.nest.table.put reached.fingerprint reached.bucket = .ok (some last.table) ∧
    last.picker = reached.nest.picker

end Hand

namespace Nest

/-- What the events of an insertion or a placement say is so. The buckets in `tried` were searched for
room, the evictions, if there was need for any, began in `bucket`, and `drawn` victims were picked. The
load that is reported is that of the table before: its fingerprints, and its slots. -/
structure Accounts (r : Rules σ) (n : Nest σ) (fingerprint : UInt64) (bucket : Nat)
    (tried : List Nat) (drawn : Nat) (o : Outcome (Nest σ)) : Prop where
  quiet_iff : o.events = [] ∧ drawn = 0 ↔ ∃ place ∈ tried, emptyCell ∈ n.table.row place
  quiet : o.events = [] → o.done = true
  loud : (¬ ∃ place ∈ tried, emptyCell ∈ n.table.row place) →
    (o.done = true ∧ o.events = [.relocated drawn] ∧ 1 ≤ drawn ∧ drawn ≤ r.budget ∧
      (∀ k, 1 ≤ k → k < drawn → Hand.StuckAt r ⟨n, fingerprint, bucket⟩ k) ∧
      Hand.SettlesAt r ⟨n, fingerprint, bucket⟩ drawn o.state) ∨
    (o.done = false ∧
      o.events = [.exhausted r.budget
        ⟨n.table.count, n.table.shape.buckets * n.table.shape.slots⟩] ∧ drawn = r.budget ∧
      o.state.table = n.table ∧ ∀ k, 1 ≤ k → k ≤ r.budget → Hand.StuckAt r ⟨n, fingerprint, bucket⟩ k)

/-- An insertion into a nest, run with a count of its picks, and what it accounts for. -/
def InsertAccounts (r : Rules σ) (n : Nest σ) (key : Key) (fingerprint : UInt64) (home : Nat)
    (o : Outcome (Nest σ)) : Prop :=
  ∃ drawn, n.insert r key = .ok o ∧
    (n.counting 0).insert r.counting key = .ok (o.map (·.counting drawn)) ∧
    Accounts r n fingerprint home [home, n.alternate r home fingerprint] drawn o

/-- A placement into a nest, run with a count of its picks, and what it accounts for. -/
def PlaceAccounts (r : Rules σ) (n : Nest σ) (fingerprint : UInt64) (bucket : Nat)
    (o : Outcome (Nest σ)) : Prop :=
  ∃ drawn, n.place r fingerprint bucket = .ok o ∧
    (n.counting 0).place r.counting fingerprint bucket = .ok (o.map (·.counting drawn)) ∧
    Accounts r n fingerprint bucket [bucket] drawn o

/-- Placements one after the other, up to the first that fails, with the outcome of each. `Places r n
entries outcomes done last` says whether all were made, and which nest they lead to. -/
inductive Places (r : Rules σ) :
    Nest σ → List (Nat × UInt64) → List (Outcome (Nest σ)) → Bool → Nest σ → Prop
  | all {n : Nest σ} : Places r n [] [] true n
  | stop {n : Nest σ} {fingerprint : UInt64} {bucket : Nat} {rest : List (Nat × UInt64)}
      {o : Outcome (Nest σ)} (first : PlaceAccounts r n fingerprint bucket o)
      (failed : o.done = false) : Places r n ((bucket, fingerprint) :: rest) [o] false o.state
  | next {n last : Nest σ} {fingerprint : UInt64} {bucket : Nat} {entries : List (Nat × UInt64)}
      {o : Outcome (Nest σ)} {outcomes : List (Outcome (Nest σ))} {done : Bool}
      (first : PlaceAccounts r n fingerprint bucket o) (stored : o.done = true)
      (rest : Places r o.state entries outcomes done last) :
    Places r n ((bucket, fingerprint) :: entries) (o :: outcomes) done last

/-- What the events of a merge say is so: they are those of its placements, and if there was a last
one that failed, the numbers of fingerprints that were taken in before and that were not. -/
structure MergeAccounts (r : Rules σ) (n : Nest σ) (other : Table) (o : Outcome (Nest σ))
    (outcomes : List (Outcome (Nest σ))) : Prop where
  places : Places r n other.entries outcomes o.done o.state
  complete : o.done = true → o.events = outcomes.flatMap (·.events) ∧
    o.state.table.count = n.table.count + other.count
  stopped : o.done = false → ∃ merged remaining,
    o.events = outcomes.flatMap (·.events) ++ [.mergeStopped merged remaining
      ⟨o.state.table.count, o.state.table.shape.buckets * o.state.table.shape.slots⟩] ∧
    o.state.table.count = n.table.count + merged ∧ merged + remaining = other.count
  stopped_iff : (∃ merged remaining load, .mergeStopped merged remaining load ∈ o.events) ↔
    o.done = false

/-! ## Chains -/

section

variable {r : Rules σ} {n : Nest σ} {fingerprint : UInt64} {bucket : Nat}

theorem Turn.evict_hand {next : Nest σ} {e : Eviction} (turn : Turn r n fingerprint bucket e next)
    (h : n.table.WellFormed) (hand : n.table.Pending fingerprint bucket) {start : Hand σ} {made : Nat}
    (here : start.after r made = .ok ⟨n, fingerprint, bucket⟩) :
    start.after r (made + 1) = .ok ⟨next, e.victim, n.alternate r bucket e.victim⟩ := by
  rw [Hand.after, here, ok_bind, Hand.evict, turn.evict_eq h hand]
  rfl

/-- How a chain of evictions can end after `made` of them, when `left` more may be made. -/
structure Ends (r : Rules σ) (start : Hand σ) (made left : Nat) (chain : Chain σ) : Prop where
  settled : ∀ attempts last, chain = .settled attempts last →
    made < attempts ∧ attempts ≤ made + left ∧
    (∀ k, made < k → k < attempts → start.StuckAt r k) ∧ start.SettlesAt r attempts last
  exhausted : ∀ evictions last, chain = .exhausted evictions last →
    ∀ k, made < k → k ≤ made + left → start.StuckAt r k

/-- **The loop makes the evictions that never look for room, up to the first that leads to some.** -/
theorem Chases.ends {left : Nat} {trail : List Eviction} {chain : Chain σ}
    (chases : Chases r left n fingerprint bucket trail chain) (h : n.table.WellFormed)
    (hP : r.placement.AlternatesBelow n.bucketCount) (hand : n.table.Pending fingerprint bucket)
    {start : Hand σ} (here : start.after r trail.length = .ok ⟨n, fingerprint, bucket⟩) :
    Ends r start trail.length left chain := by
  induction chases with
  | spent => exact ⟨nofun, fun _ _ _ k _ _ => by omega⟩
  | settles turn room =>
    refine ⟨?_, nofun⟩
    rintro _ _ ⟨⟩
    refine ⟨by omega, by omega, fun k _ _ => by omega, _, turn.evict_hand h hand here, ?_, ?_, rfl⟩
    · exact Table.isSome_slotOf?_iff.mp (by rw [room]; rfl)
    · rw [turn.put_eq h hand hP, room]
      rfl
  | @onward left n next fingerprint bucket trail e chain turn full _ ih =>
    have there := turn.evict_hand h hand here
    have stuck : start.StuckAt r (trail.length + 1) := ⟨_, there, Table.slotOf?_eq_none_iff.mp full⟩
    have rest := ih (turn.wellFormed h hand) (turn.bucketCount_eq ▸ hP)
      (turn.pending h hand hP full) there
    rw [List.length_cons] at rest
    -- this eviction leads to no room, and what comes after it is said of the rest of the chain
    have before : ∀ {most : Nat}, (∀ k, trail.length + 1 < k → k ≤ most → start.StuckAt r k) →
        ∀ k, trail.length < k → k ≤ most → start.StuckAt r k := by
      intro most later k lt le
      by_cases this : k = trail.length + 1
      · exact this ▸ stuck
      · exact later k (by omega) le
    constructor
    · intro attempts last ends
      obtain ⟨more, most, later, settles⟩ := rest.settled attempts last ends
      refine ⟨by omega, by omega, fun k lt below => ?_, settles⟩
      exact @before (attempts - 1) (fun k lt le => later k lt (by omega)) k lt (by omega)
    · intro evictions last ends k lt le
      exact before (rest.exhausted evictions last ends) k lt (by omega)

theorem no_room {tried : List Nat} (full : ∀ place ∈ tried, n.table.slotOf? emptyCell place = none) :
    ¬ ∃ place ∈ tried, emptyCell ∈ n.table.row place := by
  rintro ⟨place, mem, found⟩
  exact Table.slotOf?_eq_none_iff.mp (full place mem) found

/-- **Storing a fingerprint accounts for what it did.** -/
theorem Stores.accounts {tried : List Nat} {o : Outcome (Nest σ)}
    (stores : Stores r n fingerprint bucket tried o) (h : n.table.WellFormed)
    (hP : r.placement.AlternatesBelow n.bucketCount) (inside : bucket < n.table.shape.buckets)
    (used : fingerprint ≠ emptyCell) (fits : n.table.fits fingerprint = true)
    (mem : bucket ∈ tried) :
    Accounts r n fingerprint bucket tried (Event.allAttempts o.events) o := by
  cases stores with
  | @atOnce place slot hplace room =>
    have found : ∃ place ∈ tried, emptyCell ∈ n.table.row place :=
      ⟨place, hplace, Table.isSome_slotOf?_iff.mp (by rw [room]; rfl)⟩
    exact ⟨⟨fun _ => found, fun _ => ⟨rfl, rfl⟩⟩, fun _ => rfl, fun none => absurd found none⟩
  | @moved attempts last full chases =>
    have none := no_room full
    have ends := chases.ends h hP (Stores.pending inside used fits mem full) rfl
    obtain ⟨pos, most, stuck, settles⟩ := ends.settled attempts last rfl
    rw [List.length_nil, Nat.zero_add] at most
    constructor
    · exact ⟨fun quiet => absurd quiet.1 (List.cons_ne_nil _ _), fun found => absurd found none⟩
    · exact nofun
    · exact fun _ => Or.inl ⟨rfl, rfl, pos, most, stuck, settles⟩
  | @gaveUp evictions last full chases =>
    have none := no_room full
    have ends := chases.ends h hP (Stores.pending inside used fits mem full) rfl
    have stuck := ends.exhausted evictions last rfl
    rw [List.length_nil, Nat.zero_add] at stuck
    constructor
    · exact ⟨fun quiet => absurd quiet.1 (List.cons_ne_nil _ _), fun found => absurd found none⟩
    · exact nofun
    · exact fun _ => Or.inr ⟨rfl, rfl, rfl, rfl, stuck⟩

/-- A fingerprint that is stored is one more in the table. -/
theorem Stores.count_eq {tried : List Nat} {o : Outcome (Nest σ)}
    (stores : Stores r n fingerprint bucket tried o) (h : n.table.WellFormed)
    (hP : r.placement.AlternatesBelow n.bucketCount) (inside : bucket < n.table.shape.buckets)
    (used : fingerprint ≠ emptyCell) (fits : n.table.fits fingerprint = true)
    (mem : bucket ∈ tried)
    (own : ∀ place ∈ tried, place = bucket ∨ place = n.alternate r bucket fingerprint)
    (h' : o.state.table.WellFormed) :
    o.state.table.count = n.table.count + if o.done then 1 else 0 := by
  -- among the properties of entries that evictions keep is the one that all of them have
  have counts := stores.countP_eq h hP inside used fits mem own (p := fun _ => true)
    fun _ _ _ => rfl
  simp only [List.countP_true, Bool.and_true] at counts
  rw [h'.count_eq, counts, h.count_eq]

end

/-! ## Insertions and placements -/

section

variable {r : Rules σ} {n : Nest σ} (h : n.table.WellFormed)
  (hP : r.placement.AlternatesBelow n.bucketCount) (hpick : r.PicksInRange)
  {fingerprint : UInt64}
include h hP hpick

theorem exists_insertAccounts {key : Key} {home : Nat}
    (located : n.locate r key = .ok (fingerprint, home)) (inside : home < n.table.shape.buckets) :
    ∃ o, InsertAccounts r n key fingerprint home o := by
  obtain ⟨fp, located', used, fits⟩ := exists_locate h r key
  obtain ⟨rfl, -⟩ := Prod.mk.inj (Except.ok.inj (located.symm.trans located'))
  obtain ⟨o, run, stores⟩ := exists_insert h hP hpick located inside
  refine ⟨o, Event.allAttempts o.events, run, ?_,
    stores.accounts h hP inside used fits List.mem_cons_self⟩
  rw [insert_counting, run]
  exact congrArg (fun drawn => Except.ok (o.map (·.counting drawn))) (Nat.zero_add _)

theorem exists_placeAccounts {bucket : Nat} (inside : bucket < n.table.shape.buckets)
    (used : fingerprint ≠ emptyCell) (fits : n.table.fits fingerprint = true) :
    ∃ o, PlaceAccounts r n fingerprint bucket o ∧ o.state.table.WellFormed ∧
      o.state.table.shape = n.table.shape ∧
      o.state.table.count = n.table.count + if o.done then 1 else 0 := by
  obtain ⟨o, run, stores⟩ := exists_place h hP hpick inside used fits
  have mem : bucket ∈ [bucket] := List.mem_singleton.mpr rfl
  obtain ⟨h', same⟩ := stores.wellFormed h hP (by simpa using inside) used fits mem
  refine ⟨o, ⟨Event.allAttempts o.events, run, ?_,
    stores.accounts h hP inside used fits mem⟩, h', same,
    stores.count_eq h hP inside used fits mem (by simp) h'⟩
  rw [place_counting, run]
  exact congrArg (fun drawn => Except.ok (o.map (·.counting drawn))) (Nat.zero_add _)

end

/-! ## Merges -/

theorem PlaceAccounts.place_eq {r : Rules σ} {n : Nest σ} {fingerprint : UInt64} {bucket : Nat}
    {o : Outcome (Nest σ)} (accounts : PlaceAccounts r n fingerprint bucket o) :
    n.place r fingerprint bucket = .ok o :=
  accounts.choose_spec.1

theorem Places.not_mem {r : Rules σ} {n last : Nest σ} {entries : List (Nat × UInt64)}
    {outcomes : List (Outcome (Nest σ))} {done : Bool}
    (places : Places r n entries outcomes done last) (merged remaining : Nat) (load : Load) :
    .mergeStopped merged remaining load ∉ outcomes.flatMap (·.events) := by
  induction places with
  | all => simp
  | stop first => simpa using place_events first.place_eq merged remaining load
  | next first _ _ ih =>
    rw [List.flatMap_cons, List.mem_append]
    exact not_or_intro (place_events first.place_eq merged remaining load) ih

/-- What `placeAll` comes to: its placements, their events in turn, and if the last of them failed, an
event with the number of those before. -/
structure Reports (r : Rules σ) (total merged : Nat) (n : Nest σ) (entries : List (Nat × UInt64))
    (o : Outcome (Nest σ)) (outcomes : List (Outcome (Nest σ))) : Prop where
  places : Places r n entries outcomes o.done o.state
  complete : o.done = true → o.events = outcomes.flatMap (·.events) ∧
    o.state.table.count = n.table.count + entries.length
  stopped : o.done = false → ∃ made < entries.length,
    o.events = outcomes.flatMap (·.events) ++
      [.mergeStopped (merged + made) (total - (merged + made)) o.state.table.load] ∧
    o.state.table.count = n.table.count + made

section

variable {r : Rules σ} {total merged : Nat} {n : Nest σ} {fingerprint : UInt64} {bucket : Nat}
  {entries : List (Nat × UInt64)} {first : Outcome (Nest σ)}

theorem Reports.stop (accounts : PlaceAccounts r n fingerprint bucket first)
    (failed : first.done = false) (same : first.state.table.count = n.table.count) :
    Reports r total merged n ((bucket, fingerprint) :: entries)
      { first with
        events := first.events ++ [.mergeStopped merged (total - merged) first.state.table.load] }
      [first] := by
  refine ⟨?_, fun stored => ?_, fun _ => ⟨0, Nat.succ_pos _, ?_, same⟩⟩
  · rw [failed]
    exact .stop accounts failed
  · rw [failed] at stored
    cases stored
  · rw [List.flatMap_singleton]
    rfl

theorem Reports.next {rest : Outcome (Nest σ)} {outcomes : List (Outcome (Nest σ))}
    (accounts : PlaceAccounts r n fingerprint bucket first) (stored : first.done = true)
    (grown : first.state.table.count = n.table.count + 1)
    (reports : Reports r total (merged + 1) first.state entries rest outcomes) :
    Reports r total merged n ((bucket, fingerprint) :: entries)
      { rest with events := first.events ++ rest.events } (first :: outcomes) := by
  refine ⟨.next accounts stored reports.places, fun all => ?_, fun failed => ?_⟩
  · obtain ⟨events, counts⟩ := reports.complete all
    refine ⟨by rw [List.flatMap_cons, ← events], counts.trans ?_⟩
    rw [grown, List.length_cons, Nat.add_assoc, Nat.add_comm 1]
  · obtain ⟨made, lt, events, counts⟩ := reports.stopped failed
    refine ⟨made + 1, Nat.succ_lt_succ lt, ?_, counts.trans ?_⟩
    · rw [List.flatMap_cons, List.append_assoc, Nat.add_comm made, ← Nat.add_assoc, ← events]
    · rw [grown, Nat.add_assoc, Nat.add_comm 1]

end

theorem exists_reports {r : Rules σ} (hpick : r.PicksInRange) (total : Nat) :
    ∀ (entries : List (Nat × UInt64)) (merged : Nat) (n : Nest σ), n.table.WellFormed →
      r.placement.AlternatesBelow n.bucketCount → Storable n.table entries →
      ∃ o outcomes, placeAll r total merged n entries = .ok o ∧
        Reports r total merged n entries o outcomes := by
  intro entries
  induction entries with
  | nil =>
    exact fun merged n _ _ _ => ⟨_, [], rfl, .all, fun _ => ⟨rfl, rfl⟩, fun failed => nomatch failed⟩
  | cons entry entries ih =>
    intro merged n h hP storable
    obtain ⟨bucket, fingerprint⟩ := entry
    obtain ⟨inside, used, fits⟩ := storable _ List.mem_cons_self
    obtain ⟨first, accounts, h', same, counts⟩ := exists_placeAccounts h hP hpick inside used fits
    rw [placeAll, accounts.place_eq, ok_bind]
    cases done : first.done with
    | false =>
      rw [done] at counts
      exact ⟨_, [first], rfl, done ▸ .stop accounts done counts⟩
    | true =>
      rw [done] at counts
      have later : Storable n.table entries := fun e he => storable e (List.mem_cons_of_mem _ he)
      have count : first.state.bucketCount = n.bucketCount := by
        rw [bucketCount, same, bucketCount]
      obtain ⟨rest, outcomes, run, reports⟩ := ih (merged + 1) first.state h' (count ▸ hP)
        (later.of_shape_eq same)
      refine ⟨_, first :: outcomes, ?_, .next accounts done counts reports⟩
      show (placeAll r total (merged + 1) first.state entries >>= _) = _
      rw [run]
      rfl

theorem Reports.mergeAccounts {r : Rules σ} {n : Nest σ} {other : Table} {o : Outcome (Nest σ)}
    {outcomes : List (Outcome (Nest σ))}
    (reports : Reports r other.count 0 n other.entries o outcomes) (ho : other.WellFormed) :
    MergeAccounts r n other o outcomes := by
  have quiet := reports.places.not_mem
  have stopped : o.done = false → ∃ merged remaining,
      o.events = outcomes.flatMap (·.events) ++ [.mergeStopped merged remaining
        ⟨o.state.table.count, o.state.table.shape.buckets * o.state.table.shape.slots⟩] ∧
      o.state.table.count = n.table.count + merged ∧ merged + remaining = other.count := by
    intro failed
    obtain ⟨made, lt, events, counts⟩ := reports.stopped failed
    rw [Nat.zero_add] at events
    exact ⟨made, _, events, counts, Nat.add_sub_cancel' (ho.count_eq ▸ Nat.le_of_lt lt)⟩
  refine ⟨reports.places, fun all => ?_, stopped, ?_, fun failed => ?_⟩
  · obtain ⟨events, counts⟩ := reports.complete all
    exact ⟨events, ho.count_eq ▸ counts⟩
  · rintro ⟨merged, remaining, load, mem⟩
    by_contra all
    rw [(reports.complete (by simpa using all)).1] at mem
    exact quiet merged remaining load mem
  · obtain ⟨merged, remaining, events, -⟩ := stopped failed
    refine ⟨merged, remaining, o.state.table.load, ?_⟩
    rw [events]
    exact List.mem_append_right _ (List.mem_singleton.mpr rfl)

theorem exists_mergeAccounts {r : Rules σ} (hpick : r.PicksInRange) {n : Nest σ}
    (h : n.table.WellFormed) (hP : r.placement.AlternatesBelow n.bucketCount) {other : Table}
    (ho : other.WellFormed) (same : other.shape = n.table.shape) :
    ∃ o outcomes, n.merge r other = .ok o ∧
      (n.counting 0).merge r.counting other =
        .ok (o.map (·.counting (Event.allAttempts o.events))) ∧
      MergeAccounts r n other o outcomes := by
  obtain ⟨o, outcomes, run, reports⟩ := exists_reports hpick other.count other.entries 0 n h hP
    ((storable_entries ho).of_shape_eq same.symm)
  have run : n.merge r other = .ok o := run
  refine ⟨o, outcomes, run, ?_, reports.mergeAccounts ho⟩
  rw [merge_counting, run]
  exact congrArg (fun drawn => Except.ok (o.map (·.counting drawn))) (Nat.zero_add _)

/-! ## Events account for what happened -/

/-- **The events of an insertion and the victims it picks account for exactly what happened.** There
is nothing to report and no victim if and only if one of the two buckets of the key had room.
Otherwise there is one event. Either it has the number of victims picked, which is that of the first
eviction that led to room; or it has the whole budget, all of which was spent on evictions that led to
none, and the load of the table before.

The events of a merge are those of its placements in their order and, exactly if it stopped, one more.

An insertion is sure to end when the home bucket of its key exists, a merge when the other table has
the same dimensions. -/
theorem events_account_for_evictions (r : Rules σ) (hpick : r.PicksInRange) (n : Nest σ)
    (h : n.table.WellFormed) (hP : r.placement.AlternatesBelow n.bucketCount) :
    (∀ key : Key, r.placement.home key.index n.bucketCount < n.bucketCount →
      ∃ fingerprint home o, n.locate r key = .ok (fingerprint, home) ∧
        InsertAccounts r n key fingerprint home o) ∧
    (∀ other : Table, other.WellFormed → other.shape = n.table.shape →
      ∃ o outcomes, n.merge r other = .ok o ∧
        (n.counting 0).merge r.counting other =
          .ok (o.map (·.counting (Event.allAttempts o.events))) ∧
        MergeAccounts r n other o outcomes) ∧
    ∀ (count remaining : Nat) (load : Load),
      ((Event.relocated count).level.name = "TRACE" ∧
        (Event.relocated count).message = "relocation succeeded") ∧
      ((Event.exhausted count load).level.name = "DEBUG" ∧
        (Event.exhausted count load).message = "relocation exhausted, evictions rolled back") ∧
      (Event.mergeStopped count remaining load).level.name = "DEBUG" ∧
        (Event.mergeStopped count remaining load).message = "merge stopped on a full table" := by
  refine ⟨?_, ?_, fun _ _ _ => ⟨⟨rfl, rfl⟩, ⟨rfl, rfl⟩, rfl, rfl⟩⟩
  · intro key below
    obtain ⟨fingerprint, located, -⟩ := exists_locate h r key
    rw [UInt64.lt_iff_toNat_lt, bucketCount, Placement.toNat_bucketCount h] at below
    obtain ⟨o, accounts⟩ := exists_insertAccounts h hP hpick located below
    exact ⟨fingerprint, _, o, located, accounts⟩
  · intro other ho same
    exact exists_mergeAccounts hpick h hP ho same

/-- The second eviction leads to room in one nest, and in the other none of the three that are allowed
does, neither for a key nor for what another table holds. -/
theorem stocked_and_crowded_account :
    (∃ o, InsertAccounts byTurns stocked ⟨4, 7⟩ 7 0 o ∧ o.events = [.relocated 2]) ∧
    (∃ o, InsertAccounts oneWay crowded ⟨5, 7⟩ 7 0 o ∧
      o.events = [.exhausted 3 ⟨2, 4⟩]) ∧
    ∃ o outcomes, MergeAccounts oneWay crowded crowded.table o outcomes ∧
      o.events = [.exhausted 3 ⟨2, 4⟩, .mergeStopped 0 2 ⟨2, 4⟩] := by
  obtain ⟨stored, -, -⟩ := events_account_for_evictions byTurns byTurns_picksInRange stocked
    stocked_sound.wellFormed (stocked_sound.alternatesBelow Placement.xor_lawful)
  obtain ⟨refused, merging, -⟩ := events_account_for_evictions oneWay oneWay_picksInRange crowded
    ⟨rfl, rfl, rfl⟩ crowded_alternatesBelow
  refine ⟨?_, ?_, ?_⟩
  · obtain ⟨fingerprint, home, o, located, accounts⟩ := stored ⟨4, 7⟩ (by decide)
    cases located.symm.trans (rfl : stocked.locate byTurns ⟨4, 7⟩ = .ok (7, 0))
    have ends : (stocked.insert byTurns ⟨4, 7⟩).map (·.events) = .ok [.relocated 2] := rfl
    rw [accounts.choose_spec.1] at ends
    exact ⟨o, accounts, Except.ok.inj ends⟩
  · obtain ⟨fingerprint, home, o, located, accounts⟩ := refused ⟨5, 7⟩ (by decide)
    cases located.symm.trans (rfl : crowded.locate oneWay ⟨5, 7⟩ = .ok (7, 0))
    have ends : (crowded.insert oneWay ⟨5, 7⟩).map (·.events) =
      .ok [.exhausted 3 ⟨2, 4⟩] := rfl
    rw [accounts.choose_spec.1] at ends
    exact ⟨o, accounts, Except.ok.inj ends⟩
  · obtain ⟨o, outcomes, run, -, accounts⟩ := merging crowded.table ⟨rfl, rfl, rfl⟩ rfl
    have ends : (crowded.merge oneWay crowded.table).map (·.events) =
      .ok [.exhausted 3 ⟨2, 4⟩, .mergeStopped 0 2 ⟨2, 4⟩] := rfl
    rw [run] at ends
    exact ⟨o, outcomes, accounts, Except.ok.inj ends⟩

end Nest

end Cuckoo

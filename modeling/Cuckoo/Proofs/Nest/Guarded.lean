import Cuckoo.Proofs.Draw.Bounded
import Cuckoo.Proofs.Fingerprint
import Cuckoo.Proofs.Nest.Counting
import Cuckoo.Proofs.Placement.Bounded
import Cuckoo.Proofs.Table.Guarded

/-!
# Placing fingerprints, in bounded numbers

Fingerprints, buckets, victims and cells, each computed in numbers of its type, one from the other along a
chain of evictions. The bucket in which a chain goes on comes from a resident that was found there, and
the counters of a merge from how far it came.

**On a sound nest no operation is stuck**, however long the chain is. What carries this along a chain is
that the nest stays sound; that a bucket exists is known from the cell that was overwritten in it.
-/

set_option autoImplicit false

namespace Cuckoo

open Draw Hash Runs

/-- The rules of a scheme, with victims that are chosen at random. -/
def Scheme.rules (s : Scheme) (budget : Nat) : Rules Keystream where
  placement := s.placement
  pick generator slots := below slots generator
  budget := budget

namespace Nest

variable (scheme : Scheme) (budget : Nat)

/-! ## Evictions -/

def alternate? (n : Nest Keystream) (bucket : Nat) (fingerprint : UInt64) : Option Nat := do
  let alternate ← scheme.alternate? (UInt64.ofNat bucket) fingerprint n.bucketCount
  pure alternate.toNat

def evict? (n : Nest Keystream) (fingerprint : UInt64) (bucket : Nat) :
    Option (Eviction × Nest Keystream) := do
  let (slot, picker) ← below? n.table.shape.slots n.picker
  let (victim, table) ← n.table.exchange? fingerprint bucket slot
  pure (⟨bucket, slot, victim⟩, ⟨table, picker⟩)

def chase? : (left : Nat) → Nest Keystream → (fingerprint : UInt64) → (bucket : Nat) →
    (trail : List Eviction) → Option (Chain Keystream)
  | 0, n, _, _, trail => pure (.exhausted trail n)
  | left + 1, n, fingerprint, bucket, trail => do
    let (eviction, n) ← n.evict? fingerprint bucket
    let alternate ← n.alternate? scheme bucket eviction.victim
    match ← n.table.put? eviction.victim alternate with
    | some table => pure (.settled (trail.length + 1) { n with table })
    | none => chase? left n eviction.victim alternate (eviction :: trail)

def undo? : List Eviction → Table → Option Table
  | [], table => pure table
  | eviction :: evictions, table => do
    let (_, table) ← table.exchange? eviction.victim eviction.bucket eviction.slot
    undo? evictions table

def relocate? (n : Nest Keystream) (fingerprint : UInt64) (bucket : Nat) :
    Option (Outcome (Nest Keystream)) := do
  match ← chase? scheme budget n fingerprint bucket [] with
  | .settled attempts n => pure ⟨true, n, [.relocated attempts]⟩
  | .exhausted evictions n =>
    let table ← undo? evictions n.table
    let load ← table.load?
    pure ⟨false, { n with table }, [.exhausted budget load]⟩

/-! ## Keys -/

def locate? (n : Nest Keystream) (key : Key) : Option (UInt64 × Nat) := do
  let fingerprint ← Fingerprint.ofHash? (min n.table.shape.bits Fingerprint.maxWidth) key.tag
  let home ← scheme.home? key.index n.bucketCount
  pure (fingerprint.toUInt64, home.toNat)

def insert? (n : Nest Keystream) (key : Key) : Option (Outcome (Nest Keystream)) := do
  let (fingerprint, home) ← n.locate? scheme key
  match ← n.table.put? fingerprint home with
  | some table => pure ⟨true, { n with table }, []⟩
  | none =>
    let alternate ← n.alternate? scheme home fingerprint
    match ← n.table.put? fingerprint alternate with
    | some table => pure ⟨true, { n with table }, []⟩
    | none => n.relocate? scheme budget fingerprint home

def contains? (n : Nest Keystream) (key : Key) : Option Bool := do
  let (fingerprint, home) ← n.locate? scheme key
  if ← n.table.holds? fingerprint home then pure true
  else
    let alternate ← n.alternate? scheme home fingerprint
    n.table.holds? fingerprint alternate

def erase? (n : Nest Keystream) (key : Key) : Option (Bool × Nest Keystream) := do
  let (fingerprint, home) ← n.locate? scheme key
  match ← n.table.replaceFirst? emptyCell fingerprint home with
  | some table => pure (true, { n with table })
  | none =>
    let alternate ← n.alternate? scheme home fingerprint
    match ← n.table.replaceFirst? emptyCell fingerprint alternate with
    | some table => pure (true, { n with table })
    | none => pure (false, n)

/-! ## Merging -/

def place? (n : Nest Keystream) (fingerprint : UInt64) (bucket : Nat) :
    Option (Outcome (Nest Keystream)) := do
  match ← n.table.put? fingerprint bucket with
  | some table => pure ⟨true, { n with table }, []⟩
  | none => n.relocate? scheme budget fingerprint bucket

/-- Placements in turn, with a counter. When they stop, what is left is computed from it. -/
def placeAll? (total : Nat) : (merged : Nat) → Nest Keystream → List (Nat × UInt64) →
    Option (Outcome (Nest Keystream))
  | _, n, [] => pure ⟨true, n, []⟩
  | merged, n, (bucket, fingerprint) :: entries => do
    let first ← n.place? scheme budget fingerprint bucket
    if first.done then
      let merged ← word? (merged + 1)
      let rest ← placeAll? total merged first.state entries
      pure { rest with events := first.events ++ rest.events }
    else
      let remaining ← sub? total merged
      let load ← first.state.table.load?
      pure { first with events := first.events ++ [.mergeStopped merged remaining load] }

/-- A merge is stuck if the tables have different dimensions. -/
def merge? (n : Nest Keystream) (other : Table) : Option (Outcome (Nest Keystream)) :=
  if n.table.compatible other then do
    let entries ← other.entries?
    placeAll? scheme budget other.count 0 n entries
  else none

end Nest

/-- What a chain ends with is sound, whether or not it came to its end. -/
def Chain.Sound {σ : Type} (r : Rules σ) : Chain σ → Prop
  | .settled _ n => n.Sound r
  | .exhausted _ n => n.Sound r

namespace Nest

theorem Sound.with_table {σ : Type} {r : Rules σ} {n : Nest σ} (s : n.Sound r) {t : Table}
    (follows : n.table.Follows t) (picker : σ) : Sound r ⟨t, picker⟩ :=
  s.of_shape_eq follows.wellFormed follows.shape_eq

theorem keepsUp_undo : ∀ (evictions : List Eviction) {t : Table}, t.WellFormed →
    KeepsUp (undo? evictions t) (undo evictions t) t.Follows := by
  intro evictions
  induction evictions with
  | nil => exact fun h => keepsUp_some h.follows_refl
  | cons e evictions ih =>
    intro t h
    refine (h.keepsUp_exchange e.victim e.bucket e.slot).bind fun (_, u) after => ?_
    intro v run
    obtain ⟨found, follows⟩ := ih after.1.wellFormed v run
    exact ⟨found, follows.wellFormed, follows.shape_eq.trans after.1.shape_eq⟩

section

variable {scheme : Scheme} {budget : Nat} {n : Nest Keystream} (s : n.Sound (scheme.rules budget))
include s

theorem Sound.alternate?_eq (fingerprint : UInt64) {bucket : Nat}
    (hb : bucket < n.table.shape.buckets) :
    n.alternate? scheme bucket fingerprint =
      some (n.alternate (scheme.rules budget) bucket fingerprint) := by
  have below := (Placement.ofNat_bucket_lt s.wellFormed hb).1
  unfold alternate?
  rw [scheme.alternate?_eq fingerprint s.accepts below]
  rfl

theorem Sound.keepsUp_evict (fingerprint : UInt64) (bucket : Nat) :
    KeepsUp (n.evict? fingerprint bucket) (n.evict (scheme.rules budget) fingerprint bucket)
      fun next => next.2.Sound (scheme.rules budget) ∧ bucket < next.2.table.shape.buckets := by
  obtain ⟨slot, picker, picked, picked', -⟩ :=
    exists_below? s.wellFormed.slots_pos s.wellFormed.slots_lt n.picker
  have picked : (scheme.rules budget).pick n.picker n.table.shape.slots = .ok (slot, picker) := picked
  unfold evict? evict
  rw [picked]
  refine KeepsUp.after picked' ?_
  refine (s.wellFormed.keepsUp_exchange fingerprint bucket slot).bind fun (victim, t) after => ?_
  refine keepsUp_some ⟨s.with_table after.1 picker, ?_⟩
  show bucket < t.shape.buckets
  rw [after.1.shape_eq]
  exact after.2

theorem Sound.keepsUp_locate (key : Key) :
    KeepsUp (n.locate? scheme key) (n.locate (scheme.rules budget) key)
      fun place => place.2 < n.table.shape.buckets := by
  refine (Fingerprint.keepsUp_ofHash _ key.tag).bind fun fingerprint _ => ?_
  refine KeepsUp.after (scheme.home?_eq key.index s.accepts) (keepsUp_some ?_)
  have below := scheme.placement_lawful.home_lt key.index s.accepts
  rwa [UInt64.lt_iff_toNat_lt, bucketCount, Placement.toNat_bucketCount s.wellFormed] at below

end

/-- **A chain of evictions is never stuck**, for every number of evictions and from every bucket in which
a first one is possible. -/
theorem Sound.keepsUp_chase {scheme : Scheme} {budget : Nat} :
    ∀ (left : Nat) {n : Nest Keystream} (fingerprint : UInt64) (bucket : Nat) (trail : List Eviction),
      n.Sound (scheme.rules budget) →
      KeepsUp (chase? scheme left n fingerprint bucket trail)
        (chase (scheme.rules budget) left n fingerprint bucket trail)
        (Chain.Sound (scheme.rules budget)) := by
  intro left
  induction left with
  | zero => exact fun _ _ _ s => keepsUp_some s
  | succ left ih =>
    intro n fingerprint bucket trail s
    refine (s.keepsUp_evict fingerprint bucket).bind fun (e, next) ⟨s', hb⟩ => ?_
    refine KeepsUp.after (s'.alternate?_eq e.victim hb) ?_
    refine (s'.wellFormed.keepsUp_put e.victim _).bind fun found follows => ?_
    cases found with
    | some table => exact keepsUp_some (s'.with_table (follows table rfl) _)
    -- that the next bucket exists is not needed here: the next eviction has no answer where it does not
    | none => exact ih e.victim _ (e :: trail) s'

section

variable {scheme : Scheme} {budget : Nat} {n : Nest Keystream} (s : n.Sound (scheme.rules budget))
include s

theorem Sound.keepsUp_relocate (fingerprint : UInt64) (bucket : Nat) :
    KeepsUp (n.relocate? scheme budget fingerprint bucket)
      (n.relocate (scheme.rules budget) fingerprint bucket)
      fun o => o.state.Sound (scheme.rules budget) := by
  refine (Sound.keepsUp_chase budget fingerprint bucket [] s).bind fun chain ends => ?_
  cases chain with
  | settled attempts next => exact keepsUp_some ends
  | exhausted evictions next =>
    have ends : next.Sound (scheme.rules budget) := ends
    refine (keepsUp_undo evictions ends.wellFormed).bind fun table follows => ?_
    exact KeepsUp.after follows.wellFormed.load?_eq (keepsUp_some (ends.with_table follows _))

theorem Sound.keepsUp_insert (key : Key) :
    KeepsUp (n.insert? scheme budget key) (n.insert (scheme.rules budget) key)
      fun o => o.state.Sound (scheme.rules budget) := by
  refine (s.keepsUp_locate key).bind fun (fingerprint, home) inside => ?_
  refine (s.wellFormed.keepsUp_put fingerprint home).bind fun found follows => ?_
  cases found with
  | some table => exact keepsUp_some (s.with_table (follows table rfl) _)
  | none =>
    refine KeepsUp.after (s.alternate?_eq fingerprint inside) ?_
    refine (s.wellFormed.keepsUp_put fingerprint _).bind fun found follows => ?_
    cases found with
    | some table => exact keepsUp_some (s.with_table (follows table rfl) _)
    | none => exact s.keepsUp_relocate fingerprint home

theorem Sound.keepsUp_contains (key : Key) :
    KeepsUp (n.contains? scheme key) (n.contains (scheme.rules budget) key) fun _ => True := by
  refine (s.keepsUp_locate key).bind fun (fingerprint, home) inside => ?_
  refine (s.wellFormed.keepsUp_holds fingerprint home).bind fun found _ => ?_
  refine KeepsUp.ite (fun _ => keepsUp_some trivial) fun _ => ?_
  exact KeepsUp.after (s.alternate?_eq fingerprint inside) (s.wellFormed.keepsUp_holds fingerprint _)

theorem Sound.keepsUp_erase (key : Key) :
    KeepsUp (n.erase? scheme key) (n.erase (scheme.rules budget) key)
      fun next => next.2.Sound (scheme.rules budget) := by
  refine (s.keepsUp_locate key).bind fun (fingerprint, home) inside => ?_
  refine (s.wellFormed.keepsUp_replaceFirst emptyCell fingerprint home).bind fun found follows => ?_
  cases found with
  | some table => exact keepsUp_some (s.with_table (follows table rfl) _)
  | none =>
    refine KeepsUp.after (s.alternate?_eq fingerprint inside) ?_
    refine (s.wellFormed.keepsUp_replaceFirst emptyCell fingerprint _).bind fun found follows => ?_
    cases found with
    | some table => exact keepsUp_some (s.with_table (follows table rfl) _)
    | none => exact keepsUp_some s

theorem Sound.keepsUp_place (fingerprint : UInt64) (bucket : Nat) :
    KeepsUp (n.place? scheme budget fingerprint bucket)
      (n.place (scheme.rules budget) fingerprint bucket)
      fun o => o.state.Sound (scheme.rules budget) := by
  refine (s.wellFormed.keepsUp_put fingerprint bucket).bind fun found follows => ?_
  cases found with
  | some table => exact keepsUp_some (s.with_table (follows table rfl) _)
  | none => exact s.keepsUp_relocate fingerprint bucket

end

/-- Placing entries is not stuck as long as those that are placed and those to come are no more than the
total, and the total is in range. -/
theorem Sound.keepsUp_placeAll {scheme : Scheme} {budget total : Nat} (small : total < UInt64.size) :
    ∀ (entries : List (Nat × UInt64)) {merged : Nat} {n : Nest Keystream},
      n.Sound (scheme.rules budget) → merged + entries.length ≤ total →
      KeepsUp (placeAll? scheme budget total merged n entries)
        (placeAll (scheme.rules budget) total merged n entries)
        fun o => o.state.Sound (scheme.rules budget) := by
  intro entries
  induction entries with
  | nil => exact fun s _ => keepsUp_some s
  | cons entry entries ih =>
    intro merged n s most
    obtain ⟨bucket, fingerprint⟩ := entry
    rw [List.length_cons] at most
    refine (s.keepsUp_place fingerprint bucket).bind fun first s' => ?_
    refine KeepsUp.ite (fun _ => ?_) fun _ => ?_
    · refine KeepsUp.after (word?_eq (by omega)) ?_
      exact (ih s' (by omega)).bind fun rest s'' => keepsUp_some s''
    · refine KeepsUp.after (sub?_eq (by omega)) ?_
      exact KeepsUp.after s'.wellFormed.load?_eq (keepsUp_some s')

theorem Sound.keepsUp_merge {scheme : Scheme} {budget : Nat} {n : Nest Keystream}
    (s : n.Sound (scheme.rules budget)) {other : Table} (h : other.WellFormed)
    (compatible : n.table.compatible other = true) :
    KeepsUp (n.merge? scheme budget other) (n.merge (scheme.rules budget) other)
      fun o => o.state.Sound (scheme.rules budget) := by
  have small : other.count < UInt64.size := Nat.lt_of_le_of_lt h.count_le_capacity h.capacity_lt
  have all : 0 + other.entries.length ≤ other.count := by
    rw [Nat.zero_add]
    exact Nat.le_of_eq h.count_eq.symm
  unfold merge?
  rw [if_pos compatible]
  exact KeepsUp.after (Table.entries?_eq h.shape_ok h.size_words)
    (Sound.keepsUp_placeAll small other.entries s all)

end Nest

end Cuckoo

import Cuckoo.Fingerprint
import Cuckoo.Hash.Key
import Cuckoo.Nest.Event
import Cuckoo.Placement

/-!
# Placing fingerprints

A `Nest` is a table together with the state of a generator that picks victims. A key is looked up,
stored and deleted in its two buckets only. When both are full, a resident of the home bucket is
evicted to its own alternate bucket; if that is full too, the resident that it displaces goes on in
the same way, until some bucket has an empty cell.

**A failed insertion leaves no trace in the table.** The number of evictions is bounded by a budget;
when it is used up the evictions are undone, newest first. Only the generator has moved on.

What stays the same during all this, the placement rule, the way to pick a victim and the budget, are
the `Rules`.
-/

set_option autoImplicit false

namespace Cuckoo

open Hash

/-- The fixed part of the method. `σ` is the state of the generator that picks victims. -/
structure Rules (σ : Type) where
  placement : Placement
  /-- Picks one of so many slots. -/
  pick : σ → (slots : Nat) → Checked (Nat × σ)
  /-- How many evictions one insertion may make. -/
  budget : Nat

/-- Picks are slots: of a positive number of slots one is picked, and it exists. -/
def Rules.PicksInRange {σ : Type} (r : Rules σ) : Prop :=
  ∀ (s : σ) (slots : Nat), 0 < slots → ∃ slot s', r.pick s slots = .ok (slot, s') ∧ slot < slots

/-- A table whose fingerprints are placed by rules, and the generator that picks victims. -/
structure Nest (σ : Type) where
  table : Table
  picker : σ

/-- What there is to undo: a resident had to leave a slot. -/
structure Eviction where
  bucket : Nat
  slot : Nat
  victim : UInt64
  deriving Repr, DecidableEq

/-- How a chain of evictions ended. -/
inductive Chain (σ : Type) where
  /-- The last victim found an empty cell. -/
  | settled (attempts : Nat) (nest : Nest σ)
  /-- No victim found one. The evictions are listed newest first. -/
  | exhausted (evictions : List Eviction) (nest : Nest σ)

/-- The number of evictions that an insertion may make unless another one is chosen. -/
def defaultBudget : Nat := 500

namespace Nest

variable {σ : Type}

/-- The bucket count as the placement rules take it. -/
def bucketCount (n : Nest σ) : UInt64 := UInt64.ofNat n.table.shape.buckets

/-- The alternate bucket of a fingerprint in `bucket`. -/
def alternate (r : Rules σ) (n : Nest σ) (bucket : Nat) (fingerprint : UInt64) : Nat :=
  (r.placement.alternate (UInt64.ofNat bucket) fingerprint n.bucketCount).toNat

/-- The fingerprint of a key, as wide as a cell allows, and its home bucket. -/
def locate (r : Rules σ) (n : Nest σ) (key : Key) : Checked (UInt64 × Nat) := do
  let fingerprint ← Fingerprint.ofHash (min n.table.shape.bits Fingerprint.maxWidth) key.tag
  pure (fingerprint.toUInt64, (r.placement.home key.index n.bucketCount).toNat)

/-- A nest over a table, if the placement rule works for its bucket count. -/
def start (r : Rules σ) (table : Table) (picker : σ) : Except Failure (Nest σ) := do
  r.placement.check (UInt64.ofNat table.shape.buckets)
  pure ⟨table, picker⟩

/-! ## Evictions -/

/-- Puts a fingerprint into a picked slot of a bucket and takes out the resident of that slot. -/
def evict (r : Rules σ) (n : Nest σ) (fingerprint : UInt64) (bucket : Nat) :
    Checked (Eviction × Nest σ) := do
  let (slot, picker) ← r.pick n.picker n.table.shape.slots
  let (victim, table) ← n.table.exchange fingerprint bucket slot
  pure (⟨bucket, slot, victim⟩, ⟨table, picker⟩)

/-- Makes up to `left` evictions, the first of them in `bucket` to let `fingerprint` in, each further
one in the alternate bucket of the victim before. `trail` holds the evictions made so far. -/
def chase (r : Rules σ) : (left : Nat) → Nest σ → (fingerprint : UInt64) → (bucket : Nat) →
    (trail : List Eviction) → Checked (Chain σ)
  | 0, n, _, _, trail => pure (.exhausted trail n)
  | left + 1, n, fingerprint, bucket, trail => do
    let (eviction, n) ← n.evict r fingerprint bucket
    let alternate := n.alternate r bucket eviction.victim
    match ← n.table.put eviction.victim alternate with
    | some table => pure (.settled (trail.length + 1) { n with table })
    | none => chase r left n eviction.victim alternate (eviction :: trail)

/-- Undoes evictions, in the order given. -/
def undo : List Eviction → Table → Checked Table
  | [], table => pure table
  | eviction :: evictions, table => do
    let (_, table) ← table.exchange eviction.victim eviction.bucket eviction.slot
    undo evictions table

/-- Makes room for a fingerprint in a full bucket. -/
def relocate (r : Rules σ) (n : Nest σ) (fingerprint : UInt64) (bucket : Nat) :
    Checked (Outcome (Nest σ)) := do
  match ← chase r r.budget n fingerprint bucket [] with
  | .settled attempts n => pure ⟨true, n, [.relocated attempts]⟩
  | .exhausted evictions n =>
    let table ← undo evictions n.table
    pure ⟨false, { n with table }, [.exhausted r.budget table.load]⟩

/-! ## Keys -/

/-- Stores the fingerprint of a key: in its home bucket, else in its alternate bucket, else by making
room in its home bucket. -/
def insert (r : Rules σ) (n : Nest σ) (key : Key) : Checked (Outcome (Nest σ)) := do
  let (fingerprint, home) ← n.locate r key
  match ← n.table.put fingerprint home with
  | some table => pure ⟨true, { n with table }, []⟩
  | none =>
    match ← n.table.put fingerprint (n.alternate r home fingerprint) with
    | some table => pure ⟨true, { n with table }, []⟩
    | none => n.relocate r fingerprint home

/-- Is the fingerprint of a key in one of its buckets? -/
def contains (r : Rules σ) (n : Nest σ) (key : Key) : Checked Bool := do
  let (fingerprint, home) ← n.locate r key
  if ← n.table.holds fingerprint home then pure true
  else n.table.holds fingerprint (n.alternate r home fingerprint)

/-- Deletes one copy of the fingerprint of a key, from its home bucket if it is there, else from its
alternate bucket. The flag tells whether there was one. -/
def erase (r : Rules σ) (n : Nest σ) (key : Key) : Checked (Bool × Nest σ) := do
  let (fingerprint, home) ← n.locate r key
  match ← n.table.replaceFirst emptyCell fingerprint home with
  | some table => pure (true, { n with table })
  | none =>
    match ← n.table.replaceFirst emptyCell fingerprint (n.alternate r home fingerprint) with
    | some table => pure (true, { n with table })
    | none => pure (false, n)

/-- Empties the table. The generator keeps its state. -/
def clear (n : Nest σ) : Nest σ := { n with table := n.table.clear }

/-! ## Merging -/

/-- Stores a fingerprint in a bucket, making room there if need be. -/
def place (r : Rules σ) (n : Nest σ) (fingerprint : UInt64) (bucket : Nat) :
    Checked (Outcome (Nest σ)) := do
  match ← n.table.put fingerprint bucket with
  | some table => pure ⟨true, { n with table }, []⟩
  | none => n.relocate r fingerprint bucket

/-- Places entries in turn, up to the first that finds no place. `merged` entries of `total` have
been placed before. -/
def placeAll (r : Rules σ) (total : Nat) : (merged : Nat) → Nest σ → List (Nat × UInt64) →
    Checked (Outcome (Nest σ))
  | _, n, [] => pure ⟨true, n, []⟩
  | merged, n, (bucket, fingerprint) :: entries => do
    let first ← n.place r fingerprint bucket
    if first.done then
      let rest ← placeAll r total (merged + 1) first.state entries
      pure { rest with events := first.events ++ rest.events }
    else
      let stopped := .mergeStopped merged (total - merged) first.state.table.load
      pure { first with events := first.events ++ [stopped] }

/-- Takes in every fingerprint of a table of the same dimensions, each in the bucket where it is
there. Stops at the first that finds no place; what was placed before stays. -/
def merge (r : Rules σ) (n : Nest σ) (other : Table) : Checked (Outcome (Nest σ)) :=
  placeAll r other.count 0 n other.entries

end Nest

end Cuckoo

import Cuckoo.Filter.Basic
import Cuckoo.Plan

/-!
# Building a filter

A `Blueprint` says how large a filter is to be, either by its table's dimensions or by the wanted
accuracy, and holds the settings with their usual values. It is checked only when the filter is
built, all at once.
-/

set_option autoImplicit false

namespace Cuckoo

/-- How large a filter is to be. -/
inductive Extent where
  /-- Large enough for so many objects at a false positive rate. -/
  | accuracy (insertions : UInt64) (rate : Float)
  | dimensions (shape : Shape)

/-- What a filter is built from. -/
structure Blueprint where
  extent : Extent
  scheme : Scheme := .standard
  seed : UInt64 := Hash.defaultSeed
  victimSeed : UInt64 := defaultVictimSeed
  budget : Nat := defaultBudget

namespace Blueprint

def shape (b : Blueprint) : Except Failure Shape :=
  match b.extent with
  | .dimensions shape => pure shape
  | .accuracy insertions rate => do
    if insertions = 0 then throw .noInsertions
    Plan.checkRate rate
    let size := Plan.bucketSize rate
    let bits ← Plan.entryBits rate size.slots
    let buckets ← Plan.bucketsFor b.scheme.placement insertions size
    pure ⟨buckets.toNat, size.slots, bits⟩

def build (b : Blueprint) : Except Failure Filter := do
  let shape ← b.shape
  b.scheme.placement.check (UInt64.ofNat shape.buckets)
  let table ← Table.empty shape
  pure ⟨b.scheme, b.seed, b.budget, ⟨table, Draw.Keystream.ofSeed b.victimSeed⟩⟩

end Blueprint

end Cuckoo

import Cuckoo.Nest.Basic
import Cuckoo.Draw.Uniform
import Cuckoo.Scheme

/-!
# Cuckoo filters

A filter answers whether an object was put into it: "possibly" or "certainly not". It keeps a
fingerprint of each object in a nest, so objects can be deleted again and filters of the same make
can be merged. Victims of evictions are picked by a seeded generator: filters that are built alike
and used alike are alike.
-/

set_option autoImplicit false

namespace Cuckoo

open Hash Draw

structure Filter where
  scheme : Scheme
  /-- The seed with which objects are hashed. -/
  seed : UInt64
  /-- How many evictions one insertion may make. -/
  budget : Nat
  /-- The fingerprints, and the generator that picks victims. -/
  nest : Nest Keystream

/-- The seed of the generator that picks victims, unless another one is chosen. -/
def defaultVictimSeed : UInt64 := 1

namespace Filter

/-- The rules by which a filter places fingerprints. -/
def rules (f : Filter) : Rules Keystream where
  placement := f.scheme.placement
  pick generator slots := below slots generator
  budget := f.budget

def table (f : Filter) : Table := f.nest.table

/-! ## Measures -/

def size (f : Filter) : Nat := f.table.count

def isEmpty (f : Filter) : Bool := f.size == 0

def bitSize (f : Filter) : Nat := f.table.words.size * 64

/-- The settings that two filters must share to be merged. -/
def describe (f : Filter) : String :=
  let s := f.table.shape
  s!"{f.scheme.name} seed={f.seed} buckets={s.buckets} slots={s.slots} bits={s.bits}"

/-! ## Objects -/

/-- Adds an object. The outcome tells whether there was room; if not, the table is as before. Adding
an object twice stores two copies. -/
def insert (f : Filter) (x : Item) : Checked (Outcome Filter) := do
  let outcome ← f.nest.insert f.rules (x.key f.seed)
  pure (outcome.map fun nest => { f with nest })

def contains (f : Filter) (x : Item) : Checked Bool := f.nest.contains f.rules (x.key f.seed)

/-- Deletes one copy of an object. The flag tells whether there was one. -/
def erase (f : Filter) (x : Item) : Checked (Bool × Filter) := do
  let (found, nest) ← f.nest.erase f.rules (x.key f.seed)
  pure (found, { f with nest })

def clear (f : Filter) : Filter := { f with nest := f.nest.clear }

/-! ## Several objects -/

/-- Adds objects one by one, whether or not there is room, and lists how each of them fared. -/
def insertEach (f : Filter) : List Item → Checked (List Bool × Outcome Filter)
  | [] => pure ([], ⟨true, f, []⟩)
  | x :: xs => do
    let first ← f.insert x
    let (flags, rest) ← first.state.insertEach xs
    pure (first.done :: flags, ⟨first.done && rest.done, rest.state, first.events ++ rest.events⟩)

/-- Adds objects up to the first for which there is no room. -/
def insertAll (f : Filter) : List Item → Checked (Outcome Filter)
  | [] => pure ⟨true, f, []⟩
  | x :: xs => do
    let first ← f.insert x
    if first.done then
      let rest ← first.state.insertAll xs
      pure { rest with events := first.events ++ rest.events }
    else pure first

def containsEach (f : Filter) (xs : List Item) : Checked (List Bool) := xs.mapM f.contains

def containsAll (f : Filter) : List Item → Checked Bool
  | [] => pure true
  | x :: xs => do if ← f.contains x then f.containsAll xs else pure false

/-- Deletes a copy of each object, and lists of which there was one. -/
def eraseEach (f : Filter) : List Item → Checked (List Bool × Filter)
  | [] => pure ([], f)
  | x :: xs => do
    let (found, f) ← f.erase x
    let (flags, f) ← f.eraseEach xs
    pure (found :: flags, f)

/-- Deletes a copy of each object; the flag tells whether there was one of every object. A missing
object does not keep the others from being deleted. -/
def eraseAll (f : Filter) (xs : List Item) : Checked (Bool × Filter) := do
  let (flags, f) ← f.eraseEach xs
  pure (flags.all id, f)

/-! ## Two filters -/

/-- Do two filters agree in everything that a fingerprint depends on? -/
def agrees (f g : Filter) : Bool :=
  f.seed == g.seed && f.scheme == g.scheme && f.table.compatible g.table

/-- Takes in the fingerprints of another filter. The other filter has to agree in everything that a
fingerprint depends on. -/
def absorb (f g : Filter) : Checked (Except Failure (Outcome Filter)) :=
  if f.agrees g then do
    let outcome ← f.nest.merge f.rules g.table
    pure (.ok (outcome.map fun nest => { f with nest }))
  else pure (.error (.incompatible f.describe g.describe))

/-- Do two filters hash alike and hold the same fingerprints in each bucket? How victims are picked
and how many evictions are allowed does not matter. -/
def sameContents (f g : Filter) : Bool :=
  f.seed == g.seed && f.scheme == g.scheme && f.table == g.table

instance : BEq Filter := ⟨sameContents⟩

end Filter

end Cuckoo

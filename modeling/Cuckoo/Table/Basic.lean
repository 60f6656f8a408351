import Cuckoo.BitString.Basic
import Cuckoo.Table.Shape

/-!
# The packed table

A table is a two-dimensional array of cells, one row per bucket, packed into 64-bit words with no
space between the cells. The value 0 marks an empty cell. **Rows are unordered**: searching takes the
first match and storing the first empty cell, but two tables with the same fingerprints in each row
are equal, whatever the order.

`Table.cell` and `Table.row` are the view of the packed words as an array. The number of cells in use
is kept beside the words and follows every change.
-/

set_option autoImplicit false

namespace Cuckoo

def emptyCell : UInt64 := 0

structure Load where
  occupied : Nat
  capacity : Nat
  deriving Repr, DecidableEq

/-- The share of cells in use. -/
def Load.share (l : Load) : Float :=
  (UInt64.ofNat l.occupied).toFloat / (UInt64.ofNat l.capacity).toFloat

/-- A packed array of fingerprints. -/
structure Table where
  shape : Shape
  words : Array UInt64
  /-- The number of cells that are not empty. -/
  count : Nat
  deriving Repr

namespace Table

/-! ## The array of cells -/

def cell (t : Table) (bucket slot : Nat) : UInt64 :=
  BitString.peek t.words (t.shape.offset bucket slot) t.shape.bits

def row (t : Table) (bucket : Nat) : List UInt64 := (List.range t.shape.slots).map (t.cell bucket)

/-- The fingerprints in a bucket, in the order of their slots. -/
def residents (t : Table) (bucket : Nat) : List UInt64 := (t.row bucket).filter (· ≠ emptyCell)

/-- All fingerprints with their buckets, in the order of the cells. -/
def entries (t : Table) : List (Nat × UInt64) :=
  (List.range t.shape.buckets).flatMap fun bucket => (t.residents bucket).map fun fp => (bucket, fp)

/-- Is the value no wider than a cell? -/
def fits (t : Table) (value : UInt64) : Bool := value &&& ~~~(BitString.lowMask t.shape.bits) == 0

/-- The first slot of a bucket that holds a value. -/
def slotOf? (t : Table) (value : UInt64) (bucket : Nat) : Option Nat :=
  (List.range t.shape.slots).find? fun slot => t.cell bucket slot == value

/-- What every table that is made here satisfies: its dimensions are allowed, it has the words that
its dimensions ask for, and the number of cells in use is right. -/
structure WellFormed (t : Table) : Prop where
  shape_ok : t.shape.check = .ok ()
  size_words : t.words.size = t.shape.words
  count_eq : t.count = t.entries.length

/-! ## Making a table -/

def empty (shape : Shape) : Except Failure Table := do
  shape.check
  pure ⟨shape, Array.replicate shape.words 0, 0⟩

/-- The table with the given words, if they are as many as the dimensions ask for and `count` is the
number of cells in use. -/
def ofWords (shape : Shape) (words : Array UInt64) (count : Nat) : Except Failure Table := do
  shape.check.mapError .inData
  if words.size ≠ shape.words then throw (.wordCount shape.words words.size)
  let found := (Table.mk shape words 0).entries.length
  if found ≠ count then throw (.entryCount found count)
  pure ⟨shape, words, count⟩

/-! ## Measures -/

def capacity (t : Table) : Nat := t.shape.capacity

def load (t : Table) : Load := ⟨t.count, t.capacity⟩

/-- An estimate of the chance that an absent object is taken for present: each of the occupied cells
of two buckets misses a random fingerprint with chance `(v - 2) / (v - 1)`, where `v` is the number of
values of a cell. -/
def falsePositiveRate (t : Table) : Float :=
  let values := Float.scaleB 1.0 (Int.ofNat t.shape.bits)
  let miss := (values - 2.0) / (values - 1.0)
  1.0 - miss.pow (2.0 * (UInt64.ofNat t.shape.slots).toFloat * t.load.share)

/-! ## Reading -/

def checkBucket (t : Table) (bucket : Nat) : Checked Unit :=
  if bucket < t.shape.buckets then pure () else throw (.noBucket bucket t.shape.buckets)

def checkSlot (t : Table) (bucket slot : Nat) : Checked Unit := do
  t.checkBucket bucket
  if slot < t.shape.slots then pure () else throw (.noSlot slot t.shape.slots)

def read (t : Table) (bucket slot : Nat) : Checked UInt64 := do
  t.checkSlot bucket slot
  BitString.read t.words (t.shape.offset bucket slot) t.shape.bits

/-- Does the bucket hold the fingerprint? Nothing holds the empty value or a value that is too
wide. -/
def holds (t : Table) (fingerprint : UInt64) (bucket : Nat) : Checked Bool := do
  t.checkBucket bucket
  pure (t.fits fingerprint && fingerprint != emptyCell && (t.slotOf? fingerprint bucket).isSome)

/-! ## Writing -/

/-- The number of cells in use after one cell changed from `old` to `new`. -/
def recount (count : Nat) (old new : UInt64) : Nat :=
  if old = emptyCell then (if new = emptyCell then count else count + 1)
  else if new = emptyCell then count - 1 else count

/-- Overwrites a cell with a value, cut to the width of a cell, and returns what it held. -/
def exchange (t : Table) (value : UInt64) (bucket slot : Nat) : Checked (UInt64 × Table) := do
  t.checkSlot bucket slot
  let value := value &&& BitString.lowMask t.shape.bits
  let (old, words) ← BitString.write value t.words (t.shape.offset bucket slot) t.shape.bits
  pure (old, { t with words, count := recount t.count old value })

/-- Overwrites the first cell of a bucket that holds `old` with `new`, if there is one. Looking for
the empty value stores `new`, and overwriting with the empty value deletes `old`. -/
def replaceFirst (t : Table) (new old : UInt64) (bucket : Nat) : Checked (Option Table) := do
  t.checkBucket bucket
  if t.fits old then
    match t.slotOf? old bucket with
    | some slot =>
      let (_, t) ← t.exchange new bucket slot
      pure (some t)
    | none => pure none
  else pure none

/-- Stores a fingerprint in the first empty cell of a bucket, if there is one. The empty value and
values that are too wide have no place. -/
def put (t : Table) (fingerprint : UInt64) (bucket : Nat) : Checked (Option Table) := do
  t.checkBucket bucket
  if fingerprint = emptyCell ∨ t.fits fingerprint = false then pure none
  else t.replaceFirst fingerprint emptyCell bucket

/-- Empties every cell, and the bits to spare with them. -/
def clear (t : Table) : Table := { t with words := Array.replicate t.words.size 0, count := 0 }

/-! ## Comparing -/

/-- The fingerprints in a bucket, in ascending order. -/
def sortedResidents (t : Table) (bucket : Nat) : List UInt64 :=
  (t.residents bucket).mergeSort fun a b => decide (a ≤ b)

def compatible (t u : Table) : Bool := t.shape == u.shape

/-- Have two tables the same dimensions and the same fingerprints in each bucket? The order within a
bucket and the bits to spare do not matter. Tables with different numbers of fingerprints are told
apart at once. -/
def sameContents (t u : Table) : Bool :=
  t.compatible u && t.count == u.count &&
    (List.range t.shape.buckets).all fun bucket =>
      t.sortedResidents bucket == u.sortedResidents bucket

instance : BEq Table := ⟨sameContents⟩

end Table

end Cuckoo

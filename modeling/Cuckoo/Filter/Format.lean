import Cuckoo.Bytes.Field
import Cuckoo.Filter.Basic

/-!
# The byte format of a filter

Six big-endian fields, then the words of the table:

    ordinal of the scheme   32 bits
    buckets                 64 bits
    slots per bucket        32 bits
    bits per slot           32 bits
    fingerprints            64 bits
    words                   64 bits

The fields are signed; a number that does not fit is cut to the size of its field. The hash seed, the
eviction budget and the state of the generator are not part of the format, so a filter that is read
back gets the seed it is given, the usual budget and a fresh generator.

Reading accepts a header only if a table of that make exists and the words are all there; then the
number of fingerprints has to be the one that is found in the words. What follows the words is
ignored.
-/

set_option autoImplicit false

namespace Cuckoo.Filter

open Bytes

/-- The numbers in front of the words, as they are in the bytes. -/
structure Header where
  ordinal : Int32
  buckets : Int64
  slots : Int32
  bits : Int32
  count : Int64
  words : Int64
  deriving DecidableEq

/-- The number of bytes in front of the words. -/
def headerSize : Nat := 36

namespace Header

def ofFilter (f : Filter) : Header where
  ordinal := f.scheme.ordinal
  buckets := Int64.ofNat f.table.shape.buckets
  slots := Int32.ofNat f.table.shape.slots
  bits := Int32.ofNat f.table.shape.bits
  count := Int64.ofNat f.table.count
  words := Int64.ofNat f.table.words.size

/-- The fields of a header, in the order of the bytes. -/
def fields (h : Header) : List Field :=
  [.int32 h.ordinal, .int64 h.buckets, .int32 h.slots, .int32 h.bits, .int64 h.count,
    .int64 h.words]

/-- The value that a reader found, or the complaint that the field is not all there. -/
def expect {α : Type} (field : HeaderField) : Option α → Except Failure α
  | some value => pure value
  | none => throw (.truncated field)

def read (bytes : List UInt8) : Except Failure (Header × List UInt8) := do
  let (ordinal, bytes) ← expect .ordinal (readInt32 bytes)
  let (buckets, bytes) ← expect .buckets (readInt64 bytes)
  let (slots, bytes) ← expect .slots (readInt32 bytes)
  let (bits, bytes) ← expect .bits (readInt32 bytes)
  let (count, bytes) ← expect .count (readInt64 bytes)
  let (words, bytes) ← expect .words (readInt64 bytes)
  pure (⟨ordinal, buckets, slots, bits, count, words⟩, bytes)

/-- A field that counts something, as a natural number. -/
def natural (field : HeaderField) (value : Int) : Except Failure Nat :=
  if value < 0 then throw (.negative field value) else pure value.toNat

end Header

def encode (f : Filter) : List UInt8 :=
  Field.encodeAll ((Header.ofFilter f).fields ++ f.table.words.toList.map .word)

/-- The filter with the given bytes, which is to hash objects with the given seed. -/
def decode (bytes : List UInt8) (seed : UInt64) : Except Failure Filter := do
  let (header, bytes) ← Header.read bytes
  let scheme ← Scheme.ofOrdinal header.ordinal
  let buckets ← Header.natural .buckets header.buckets.toInt
  (scheme.placement.check (UInt64.ofNat buckets)).mapError .inData
  let slots ← Header.natural .slots header.slots.toInt
  let bits ← Header.natural .bits header.bits.toInt
  let count ← Header.natural .count header.count.toInt
  let wordCount ← Header.natural .words header.words.toInt
  match readWords wordCount bytes with
  | none => throw (.truncatedWords wordCount bytes.length)
  | some (words, _) =>
    let table ← Table.ofWords ⟨buckets, slots, bits⟩ words.toArray count
    pure ⟨scheme, seed, defaultBudget, ⟨table, Draw.Keystream.ofSeed defaultVictimSeed⟩⟩

end Cuckoo.Filter

import Cuckoo.Bytes.Endian

/-!
# Fields of a byte format

The byte format of a filter is a sequence of fixed-size big-endian fields of three kinds. This file
holds the fields, their bytes, and the readers. A reader takes its bytes from the front of the input
and returns what is left, or `none` when too few bytes are left; it never looks ahead.
-/

set_option autoImplicit false

namespace Cuckoo.Bytes

/-- Splits off the first `count` bytes, if there are that many. -/
def take? : (count : Nat) → List UInt8 → Option (List UInt8 × List UInt8)
  | 0, bytes => some ([], bytes)
  | _ + 1, [] => none
  | count + 1, byte :: bytes => (take? count bytes).map fun (front, rest) => (byte :: front, rest)

/-- Exactly the long enough inputs can be split, and they are split at `count`. -/
theorem take?_eq (count : Nat) (bytes : List UInt8) :
    take? count bytes =
      if count ≤ bytes.length then some (bytes.take count, bytes.drop count) else none := by
  induction count generalizing bytes with
  | zero => simp [take?]
  | succ count ih =>
    cases bytes with
    | nil => simp [take?]
    | cons byte bytes =>
      simp only [take?, ih, List.length_cons, Nat.add_le_add_iff_right]
      split <;> simp

/-- A value together with the kind of field that holds it. -/
inductive Field where
  | int32 (value : Int32)
  | int64 (value : Int64)
  | word (value : UInt64)
  deriving DecidableEq

inductive Kind where
  | int32
  | int64
  | word
  deriving Repr, DecidableEq

namespace Field

def kind : Field → Kind
  | .int32 _ => .int32
  | .int64 _ => .int64
  | .word _ => .word

/-- The bytes of a field: its value as a two's complement number, most significant byte first. -/
def encode : Field → List UInt8
  | .int32 value => bigEndian 4 value.toUInt32.toNat
  | .int64 value => bigEndian 8 value.toUInt64.toNat
  | .word value => bigEndian 8 value.toNat

def encodeAll (fields : List Field) : List UInt8 :=
  fields.foldr (fun field bytes => field.encode ++ bytes) []

end Field

def readInt32 (bytes : List UInt8) : Option (Int32 × List UInt8) :=
  (take? 4 bytes).map fun (front, rest) => ((UInt32.ofNat (ofBigEndian front)).toInt32, rest)

def readInt64 (bytes : List UInt8) : Option (Int64 × List UInt8) :=
  (take? 8 bytes).map fun (front, rest) => ((UInt64.ofNat (ofBigEndian front)).toInt64, rest)

def readWord (bytes : List UInt8) : Option (UInt64 × List UInt8) :=
  (take? 8 bytes).map fun (front, rest) => (UInt64.ofNat (ofBigEndian front), rest)

def readWords : (count : Nat) → List UInt8 → Option (List UInt64 × List UInt8)
  | 0, bytes => some ([], bytes)
  | count + 1, bytes => do
    let (word, bytes) ← readWord bytes
    let (words, bytes) ← readWords count bytes
    pure (word :: words, bytes)

def Kind.read : Kind → List UInt8 → Option (Field × List UInt8)
  | .int32, bytes => (readInt32 bytes).map fun (value, rest) => (.int32 value, rest)
  | .int64, bytes => (readInt64 bytes).map fun (value, rest) => (.int64 value, rest)
  | .word, bytes => (readWord bytes).map fun (value, rest) => (.word value, rest)

/-- One step of a reading schedule: a typed field, or a number of bytes taken as they are. -/
inductive Request where
  | field (kind : Kind)
  | raw (count : Nat)
  deriving Repr, DecidableEq

inductive Piece where
  | field (value : Field)
  | raw (bytes : List UInt8)
  deriving DecidableEq

def Request.read : Request → List UInt8 → Option (Piece × List UInt8)
  | .field kind, bytes => (kind.read bytes).map fun (value, rest) => (.field value, rest)
  | .raw count, bytes => (take? count bytes).map fun (front, rest) => (.raw front, rest)

/-- Carries out reading steps in turn, up to and without the first that lacks bytes. Each piece comes
with the number of bytes left behind it; the flag tells whether the whole schedule was carried out. -/
def readAll : List Request → List UInt8 → List (Piece × Nat) × Bool
  | [], _ => ([], true)
  | request :: requests, bytes =>
    match request.read bytes with
    | none => ([], false)
    | some (piece, rest) =>
      let (pieces, complete) := readAll requests rest
      ((piece, rest.length) :: pieces, complete)

end Cuckoo.Bytes

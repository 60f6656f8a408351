import Cuckoo.Bytes.Endian

/-!
# Objects, as the hash sees them

A filter stores no object, it only hashes them. So an object is whatever it feeds to the hash: a
sequence of pieces. The rules are those of a little-endian 64-bit machine: a text ends in the byte
`ff`, which occurs in no text, so neighbouring texts cannot run together; a sequence of varying
length announces its length; a tuple, whose length is fixed, does not; an optional object announces
which case it is.
-/

set_option autoImplicit false

namespace Cuckoo.Hash

open Bytes

/-- An object that can be put into a filter. -/
inductive Item where
  | text (s : String)
  /-- A whole number held in `size` bytes, in two's complement. -/
  | int (size : Nat) (value : Int)
  | flag (b : Bool)
  | char (c : Char)
  /-- A byte string of varying length. -/
  | bytes (bs : List UInt8)
  /-- Pieces that are fed as they are. -/
  | raw (chunks : List (List UInt8))
  | tuple (xs : List Item)
  /-- A sequence of varying length. -/
  | list (xs : List Item)
  | none
  | some (x : Item)

namespace Item

/-- A length or a case number, as eight bytes. -/
def count (n : Nat) : List UInt8 := littleEndian 8 n

mutual

/-- The pieces that an object feeds to the hash, in order. -/
def pieces : Item → List (List UInt8)
  | .text s => [s.toUTF8.toList, [0xff]]
  | .int size value => [littleEndian size (value % Int.ofNat (Nat.pow 256 size)).toNat]
  | .flag b => [[if b then 1 else 0]]
  | .char c => [littleEndian 4 c.toNat]
  | .bytes bs => [count bs.length, bs]
  | .raw chunks => chunks
  | .tuple xs => piecesOfAll xs
  | .list xs => count xs.length :: piecesOfAll xs
  | .none => [count 0]
  | .some x => count 1 :: pieces x

/-- The pieces of several objects, one object after the other. -/
def piecesOfAll : List Item → List (List UInt8)
  | [] => []
  | x :: xs => pieces x ++ piecesOfAll xs

end

end Item

end Cuckoo.Hash

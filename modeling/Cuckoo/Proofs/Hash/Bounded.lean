import Cuckoo.Proofs.Hash.Chunks
import Cuckoo.Proofs.Runs

/-!
# Hashing, with every index checked

A `Buffer` cannot be wrong about its block: sixteen bytes are in its type, and so is it that fewer of them
wait. A `RawBuffer` holds the same with neither: a list of bytes and a number. What a buffer does is done
here on such data, slice by slice and sum by sum. A slice that reaches out of its string, a copy between
spans of different lengths, a word of too few bytes and a count that is out of range leave the run stuck.

Nothing but the count could be: **a raw buffer that started empty goes through what the buffer goes
through** (`write?_eq`, `digest?_eq`) as long as the bytes taken in can be counted. So the hash of every
object of fewer than 2^64 bytes is found, and with it its key.
-/

set_option autoImplicit false

namespace Cuckoo.Hash

open Bytes Runs

/-! ## Slices -/

/-- The bytes between two places. -/
def slice? (bytes : List UInt8) (first behind : Nat) : Option (List UInt8) :=
  if first ≤ behind ∧ behind ≤ bytes.length then some ((bytes.drop first).take (behind - first)) else none

/-- A string with the bytes between two places replaced by others, which have to be as many. -/
def copyInto? (block : List UInt8) (first behind : Nat) (bytes : List UInt8) : Option (List UInt8) := do
  let old ← slice? block first behind
  if old.length = bytes.length then pure (block.take first ++ (bytes ++ block.drop behind)) else none

/-- A word, of a string that has enough bytes for one. -/
def fullWord? (bytes : List UInt8) : Option UInt64 :=
  if 8 ≤ bytes.length then some (wordOfBytes bytes) else none

/-- A word of at most eight bytes, which are copied to the front of eight zeros. -/
def partialWord? (bytes : List UInt8) : Option UInt64 := do
  let padded ← copyInto? (List.replicate 8 0) 0 bytes.length bytes
  fullWord? padded

/-- The word between two places of a block, which is zero if nothing is between them. -/
def tailWord? (block : List UInt8) (first behind : Nat) : Option UInt64 :=
  if first < behind then do
    let bytes ← slice? block first behind
    partialWord? bytes
  else some 0

theorem slice?_eq {bytes : List UInt8} {first behind : Nat} (ordered : first ≤ behind)
    (inside : behind ≤ bytes.length) :
    slice? bytes first behind = some ((bytes.drop first).take (behind - first)) :=
  if_pos ⟨ordered, inside⟩

theorem slice?_front {bytes : List UInt8} {behind : Nat} (inside : behind ≤ bytes.length) :
    slice? bytes 0 behind = some (bytes.take behind) := slice?_eq (Nat.zero_le _) inside

theorem slice?_rest {bytes : List UInt8} {first : Nat} (inside : first ≤ bytes.length) :
    slice? bytes first bytes.length = some (bytes.drop first) := by
  have size : (bytes.drop first).length = bytes.length - first := List.length_drop
  rw [slice?_eq inside (Nat.le_refl _), List.take_of_length_le (Nat.le_of_eq size)]

theorem copyInto?_eq {block bytes : List UInt8} {first : Nat}
    (inside : first + bytes.length ≤ block.length) :
    copyInto? block first (first + bytes.length) bytes =
      some (block.take first ++ (bytes ++ block.drop (first + bytes.length))) := by
  unfold copyInto?
  rw [slice?_eq (Nat.le_add_right _ _) inside, Option.bind_eq_bind, Option.bind_some]
  refine if_pos ?_
  rw [List.length_take, List.length_drop]
  omega

theorem fullWord?_eq {bytes : List UInt8} (enough : 8 ≤ bytes.length) :
    fullWord? bytes = some (wordOfBytes bytes) := if_pos enough

/-- Zeros behind the bytes of a word change nothing. -/
theorem wordOfBytes_append_zeros {bytes : List UInt8} {zeros : Nat}
    (short : bytes.length + zeros ≤ 8) :
    wordOfBytes (bytes ++ List.replicate zeros 0) = wordOfBytes bytes := by
  have nothing : (List.replicate zeros (0 : UInt8)).foldr
      (fun byte (word : UInt64) => (word <<< 8) ||| byte.toUInt64) 0 = 0 := by
    induction zeros with
    | zero => rfl
    | succ zeros ih =>
      rw [List.replicate_succ, List.foldr_cons, ih (by omega)]
      rfl
  have size : (bytes ++ List.replicate zeros (0 : UInt8)).length ≤ 8 := by
    rwa [List.length_append, List.length_replicate]
  unfold wordOfBytes
  rw [List.take_of_length_le size, List.take_of_length_le (by omega), List.foldr_append, nothing]

theorem partialWord?_eq {bytes : List UInt8} (short : bytes.length ≤ 8) :
    partialWord? bytes = some (wordOfBytes bytes) := by
  have room : 0 + bytes.length ≤ (List.replicate 8 (0 : UInt8)).length := by
    rwa [Nat.zero_add, List.length_replicate]
  have copied := copyInto?_eq room
  rw [Nat.zero_add, List.take_zero, List.nil_append, List.drop_replicate] at copied
  have size : (bytes ++ List.replicate (8 - bytes.length) (0 : UInt8)).length = 8 := by
    rw [List.length_append, List.length_replicate]
    omega
  unfold partialWord?
  rw [copied, Option.bind_eq_bind, Option.bind_some, fullWord?_eq (Nat.le_of_eq size.symm),
    wordOfBytes_append_zeros (by omega)]

theorem tailWord?_eq {block : List UInt8} {first behind : Nat} (inside : behind ≤ block.length)
    (short : behind ≤ first + 8) :
    tailWord? block first behind = some (wordOfBytes ((block.take behind).drop first)) := by
  have size : ((block.take behind).drop first).length = behind - first := by
    rw [List.length_drop, List.length_take, Nat.min_eq_left inside]
  unfold tailWord?
  split
  next some =>
    rw [slice?_eq (Nat.le_of_lt some) inside, ← List.drop_take]
    exact partialWord?_eq (by omega)
  next none =>
    rw [List.eq_nil_of_length_eq_zero (by omega : ((block.take behind).drop first).length = 0)]
    rfl

/-! ## The buffer -/

structure RawBuffer where
  lanes : Digest
  mixed : Nat
  block : List UInt8
  filled : Nat

namespace RawBuffer

def start (seed : UInt64) : RawBuffer := ⟨Digest.start seed, 0, List.replicate 16 0, 0⟩

/-- Mixes a block of sixteen bytes. -/
def mix? (b : RawBuffer) (block : List UInt8) : Option RawBuffer := do
  let k₁ ← fullWord? (← slice? block 0 8)
  let k₂ ← fullWord? (← slice? block 8 16)
  let mixed ← word? (b.mixed + 16)
  pure { b with lanes := b.lanes.mix k₁ k₂, mixed }

def complete? (b : RawBuffer) (piece : List UInt8) : Option (RawBuffer × List UInt8) :=
  if b.filled = 0 then some (b, piece)
  else do
    let wanted ← sub? 16 b.filled
    let front ← slice? piece 0 wanted
    let block ← copyInto? b.block b.filled b.block.length front
    let b ← { b with block }.mix? block
    let rest ← slice? piece wanted piece.length
    pure ({ b with filled := 0 }, rest)

def mixBlocks? : (blocks : Nat) → RawBuffer → List UInt8 → Option (RawBuffer × List UInt8)
  | 0, b, bytes => some (b, bytes)
  | blocks + 1, b, bytes => do
    let block ← slice? bytes 0 16
    let b ← b.mix? block
    let rest ← slice? bytes 16 bytes.length
    mixBlocks? blocks b rest

def drain? (b : RawBuffer) (piece : List UInt8) : Option RawBuffer := do
  let (b, rest) ← mixBlocks? (piece.length / 16) b piece
  let block ← copyInto? b.block 0 rest.length rest
  pure { b with block, filled := rest.length }

def write? (b : RawBuffer) (piece : List UInt8) : Option RawBuffer := do
  let reach ← word? (b.filled + piece.length)
  if reach < 16 then
    let block ← copyInto? b.block b.filled reach piece
    pure { b with block, filled := reach }
  else
    let (b, rest) ← b.complete? piece
    b.drain? rest

def digest? (b : RawBuffer) : Option Digest := do
  let length ← word? (b.mixed + b.filled)
  let k₂ ← tailWord? b.block 8 b.filled
  let k₁ ← tailWord? b.block 0 (min b.filled 8)
  pure (b.lanes.finish k₁ k₂ (UInt64.ofNat length))

/-! ### Blocks -/

theorem mix?_eq (b : RawBuffer) {block : List UInt8} (enough : 16 ≤ block.length)
    (small : b.mixed + 16 < UInt64.size) :
    b.mix? block = some { b with
      lanes := b.lanes.mix (wordOfBytes block) (wordOfBytes (block.drop 8)), mixed := b.mixed + 16 } := by
  have first : 8 ≤ (block.take 8).length := by
    rw [List.length_take]
    omega
  have second : 8 ≤ ((block.drop 8).take 8).length := by
    rw [List.length_take, List.length_drop]
    omega
  rw [← wordOfBytes_take block (Nat.le_refl 8), ← wordOfBytes_take (block.drop 8) (Nat.le_refl 8)]
  refine bind_eq_some (slice?_front (by omega)) ?_
  refine bind_eq_some (fullWord?_eq first) ?_
  refine bind_eq_some (slice?_eq (by decide) enough) ?_
  refine bind_eq_some (fullWord?_eq second) ?_
  exact bind_eq_some (word?_eq small) rfl

theorem mixBlocks?_eq : ∀ {blocks : Nat} (b : RawBuffer) {bytes : List UInt8},
    16 * blocks ≤ bytes.length → b.mixed + 16 * blocks < UInt64.size →
      mixBlocks? blocks b bytes = some
        ({ b with lanes := (Digest.mixBlocks blocks b.lanes bytes).1, mixed := b.mixed + 16 * blocks },
          (Digest.mixBlocks blocks b.lanes bytes).2) := by
  intro blocks
  induction blocks with
  | zero => exact fun _ _ _ _ => rfl
  | succ blocks ih =>
    intro b bytes enough small
    have front : 16 ≤ (bytes.take 16).length := by
      rw [List.length_take]
      omega
    have behind : 16 * blocks ≤ (bytes.drop 16).length := by
      rw [List.length_drop]
      omega
    have next := b.mix?_eq front (by omega)
    rw [List.drop_take, wordOfBytes_take _ (by decide), wordOfBytes_take _ (by decide)] at next
    refine bind_eq_some (slice?_front (by omega)) ?_
    refine bind_eq_some next ?_
    refine bind_eq_some (slice?_rest (by omega)) ((ih _ behind ?_).trans ?_)
    · dsimp only
      omega
    · dsimp only
      rw [Nat.add_assoc, Nat.add_comm 16, ← Nat.mul_succ]
      rfl

end RawBuffer

/-! ## What the buffer does -/

/-- Counts are taken in machine numbers as they are, if they are in range. -/
theorem toNat_add_ofNat {x : UInt64} {n : Nat} (small : x.toNat + n < UInt64.size) :
    (x + UInt64.ofNat n).toNat = x.toNat + n := by
  rw [UInt64.toNat_add, UInt64.toNat_ofNat_of_lt' (by omega)]
  exact Nat.mod_eq_of_lt small

namespace Buffer

/-- The buffer, without what its type says about it. -/
def raw (b : Buffer) : RawBuffer := ⟨b.lanes, b.mixed.toNat, b.block.toList, b.filled⟩

/-- The number of bytes taken in so far. -/
def taken (b : Buffer) : Nat := b.mixed.toNat + b.filled

/-- Where bytes fit into a block, they are copied to their place. -/
theorem copyInto?_toList (block : Vector UInt8 16) {place behind : Nat} {bytes : List UInt8}
    (reach : behind = place + bytes.length) (inside : behind ≤ 16) :
    copyInto? block.toList place behind bytes = some (overwrite block place bytes).toList := by
  subst reach
  rw [copyInto?_eq (by rwa [Vector.length_toList]), toList_overwrite _ _ _ inside]

section

variable {b : Buffer} {piece : List UInt8} (small : b.taken + piece.length < UInt64.size)
include small

theorem complete?_eq (long : 16 ≤ b.filled + piece.length) :
    b.raw.complete? piece = some ((b.complete piece).1.raw, (b.complete piece).2) ∧
      (b.complete piece).1.taken + (b.complete piece).2.length = b.taken + piece.length := by
  unfold taken at small ⊢
  unfold RawBuffer.complete? Buffer.complete
  by_cases none : b.filled.val = 0
  · rw [if_pos none, if_pos (show b.raw.filled = 0 from none)]
    exact ⟨rfl, rfl⟩
  have below := b.filled.isLt
  have counted : (b.mixed + 16).toNat = b.mixed.toNat + 16 :=
    toNat_add_ofNat (x := b.mixed) (n := 16) (by omega)
  have size : (piece.take (16 - b.filled)).length = 16 - b.filled := by
    rw [List.length_take]
    omega
  have front : slice? piece 0 (16 - b.filled) = some (piece.take (16 - b.filled)) :=
    slice?_front (by omega)
  have rest : slice? piece (16 - b.filled) piece.length = some (piece.drop (16 - b.filled)) :=
    slice?_rest (by omega)
  have copied : copyInto? b.raw.block b.raw.filled b.raw.block.length (piece.take (16 - b.filled)) =
      some (overwrite b.block b.filled (piece.take (16 - b.filled))).toList := by
    rw [show b.raw.block.length = 16 from Vector.length_toList]
    exact copyInto?_toList b.block (by show 16 = b.filled.val + _; omega) (Nat.le_refl _)
  rw [if_neg none, if_neg (show ¬ b.raw.filled = 0 from none)]
  dsimp only
  -- which bytes were copied is settled; from here on it is a block
  generalize overwrite b.block b.filled (piece.take (16 - b.filled)) = block at copied ⊢
  refine ⟨?_, ?_⟩
  · refine bind_eq_some (sub?_eq (Nat.le_of_lt below)) ?_
    refine bind_eq_some front ?_
    refine bind_eq_some copied ?_
    refine bind_eq_some (RawBuffer.mix?_eq _ ?_ ?_) ?_
    · exact Nat.le_of_eq Vector.length_toList.symm
    · show b.mixed.toNat + 16 < UInt64.size
      omega
    · refine bind_eq_some rest ?_
      unfold raw
      rw [counted]
      rfl
  · rw [counted, List.length_drop]
    omega

theorem drain?_eq (none : b.filled.val = 0) :
    b.raw.drain? piece = some (b.drain piece).raw ∧
      (b.drain piece).taken = b.taken + piece.length := by
  unfold taken at small ⊢
  have enough : 16 * (piece.length / 16) ≤ piece.length := Nat.mul_div_le _ _
  have counted : (b.mixed + 16 * UInt64.ofNat (piece.length / 16)).toNat =
      b.mixed.toNat + 16 * (piece.length / 16) := by
    rw [show (16 : UInt64) = UInt64.ofNat 16 from rfl, ← UInt64.ofNat_mul]
    exact toNat_add_ofNat (by omega)
  have rest : (Digest.mixBlocks (piece.length / 16) b.lanes piece).2.length = piece.length % 16 := by
    rw [Digest.mixBlocks_rest, List.length_drop]
    omega
  refine ⟨?_, ?_⟩
  · refine bind_eq_some (RawBuffer.mixBlocks?_eq b.raw enough ?_) ?_
    · show b.mixed.toNat + _ < UInt64.size
      omega
    refine bind_eq_some (copyInto?_toList b.block (Nat.zero_add _).symm ?_) ?_
    · show (Digest.mixBlocks (piece.length / 16) b.lanes piece).2.length ≤ 16
      omega
    · unfold drain raw
      dsimp only
      rw [counted]
      exact congrArg some (congrArg (RawBuffer.mk _ _ _) rest)
  · unfold drain
    dsimp only
    rw [counted]
    omega

/-- **A piece is taken in**, as long as its bytes can be counted with those before. -/
theorem write?_eq : b.raw.write? piece = some (b.write piece).raw ∧
    (b.write piece).taken = b.taken + piece.length := by
  have reach : b.filled + piece.length < UInt64.size := by
    unfold taken at small
    omega
  unfold Buffer.write
  by_cases room : b.filled + piece.length < 16
  · rw [dif_pos room]
    refine ⟨?_, ?_⟩
    · refine bind_eq_some (word?_eq reach) ?_
      refine (if_pos room).trans ?_
      exact bind_eq_some (copyInto?_toList b.block rfl (Nat.le_of_lt room)) rfl
    · unfold taken
      exact (Nat.add_assoc _ _ _).symm
  · rw [dif_neg room]
    obtain ⟨completed, same⟩ := complete?_eq small (Nat.le_of_not_lt room)
    have none : (b.complete piece).1.filled.val = 0 := by
      unfold Buffer.complete
      split
      next none => exact none
      next => rfl
    have small' : (b.complete piece).1.taken + (b.complete piece).2.length < UInt64.size := same ▸ small
    obtain ⟨drained, taken_eq⟩ := drain?_eq small' none
    refine ⟨?_, taken_eq.trans same⟩
    refine bind_eq_some (word?_eq reach) ?_
    refine (if_neg room).trans ?_
    exact bind_eq_some completed drained

end

theorem digest?_eq {b : Buffer} (small : b.taken < UInt64.size) : b.raw.digest? = some b.digest := by
  have below := b.filled.isLt
  have whole : b.block.toList.length = 16 := Vector.length_toList
  have second : tailWord? b.block.toList 8 b.filled = some (wordOfBytes (b.waiting.drop 8)) :=
    tailWord?_eq (by omega) (by omega)
  have first : tailWord? b.block.toList 0 (min b.filled 8) = some (wordOfBytes b.waiting) := by
    rw [tailWord?_eq (by omega) (by omega), List.drop_zero, Nat.min_comm, ← List.take_take,
      wordOfBytes_take _ (Nat.le_refl 8)]
    rfl
  have length : UInt64.ofNat (b.mixed.toNat + b.filled) = b.mixed + UInt64.ofNat b.filled := by
    rw [UInt64.ofNat_add, UInt64.ofNat_toNat]
  refine bind_eq_some (word?_eq small) ?_
  refine bind_eq_some second ?_
  refine bind_eq_some first ?_
  exact congrArg (fun size => some (b.lanes.finish _ _ size)) length

theorem writeAll?_eq : ∀ (pieces : List (List UInt8)) {b : Buffer},
    b.taken + pieces.flatten.length < UInt64.size →
      pieces.foldlM RawBuffer.write? b.raw = some (pieces.foldl write b).raw ∧
        (pieces.foldl write b).taken = b.taken + pieces.flatten.length := by
  intro pieces
  induction pieces with
  | nil => exact fun _ => ⟨rfl, rfl⟩
  | cons piece pieces ih =>
    intro b small
    rw [List.flatten_cons, List.length_append, ← Nat.add_assoc] at small ⊢
    have first : b.taken + piece.length < UInt64.size := by omega
    obtain ⟨found, taken_eq⟩ := write?_eq first
    rw [← taken_eq] at small ⊢
    obtain ⟨rest, all⟩ := ih small
    rw [List.foldlM_cons, found]
    exact ⟨rest, all⟩

end Buffer

/-! ## Objects -/

/-- The digest of pieces, one after the other. -/
def hash? (seed : UInt64) (pieces : List (List UInt8)) : Option Digest := do
  let b ← pieces.foldlM RawBuffer.write? (RawBuffer.start seed)
  b.digest?

/-- **Hashing is never stuck** where the bytes can be counted, and the digest is that of the bytes. -/
theorem hash?_eq {seed : UInt64} {pieces : List (List UInt8)}
    (small : pieces.flatten.length < UInt64.size) :
    hash? seed pieces = some (Murmur3.digest seed pieces.flatten) := by
  have started : RawBuffer.start seed = (Buffer.start seed).raw := rfl
  have empty : (Buffer.start seed).taken + pieces.flatten.length < UInt64.size :=
    (Nat.zero_add _).symm ▸ small
  obtain ⟨found, taken_eq⟩ := Buffer.writeAll?_eq pieces empty
  have stands := standsFor_foldl _ Buffer.StandsFor.write pieces
    (Buffer.standsFor_start seed (Vector.replicate 16 0))
  rw [List.nil_append] at stands
  refine bind_eq_some (started ▸ found) ?_
  rw [Buffer.digest?_eq (taken_eq ▸ empty)]
  exact congrArg some stands.digest_eq

/-- The bytes of an object can be counted. -/
def Item.Countable (x : Item) : Prop := x.pieces.flatten.length < UInt64.size

instance (x : Item) : Decidable x.Countable := Nat.decLt _ _

def Item.key? (seed : UInt64) (x : Item) : Option Key := do
  let digest ← hash? seed x.pieces
  pure (.ofDigest digest)

def int32? (value : Int32) : Option Int32 := do
  let digest ← hash? 0 [littleEndian 4 value.toUInt32.toNat]
  pure digest.first.toUInt32.toInt32

theorem Item.Countable.key?_eq {x : Item} (countable : x.Countable) (seed : UInt64) :
    x.key? seed = Option.some (x.key seed) := by
  unfold key?
  rw [hash?_eq countable, Item.key_eq]
  rfl

theorem int32?_eq (value : Int32) : int32? value = some (int32 value) := by
  have four : [littleEndian 4 value.toUInt32.toNat].flatten = littleEndian 4 value.toUInt32.toNat := by
    rw [List.flatten_cons, List.flatten_nil, List.append_nil]
  have small : [littleEndian 4 value.toUInt32.toNat].flatten.length < UInt64.size := by
    rw [four, length_littleEndian]
    decide
  unfold int32?
  rw [hash?_eq small, four, int32_eq]
  rfl

end Cuckoo.Hash

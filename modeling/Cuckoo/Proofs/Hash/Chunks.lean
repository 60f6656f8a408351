import Cuckoo.Hash.Buffer
import Cuckoo.Hash.Key
import Cuckoo.Proofs.Hash.Blocks

/-!
# Pieces leave no trace in a digest

A stream and a buffer both stand, at any time, for the bytes taken in so far: some whole blocks have been
mixed, and the bytes behind them are kept, by the stream as two words and by the buffer in front of stale
bytes. Taking in a byte, or a piece, leads from there to where the longer string is stood for. So a digest
is that of the concatenation, **whatever the pieces were, whatever bytes the buffer held before, and
however often a digest has been taken on the way**.
-/

set_option autoImplicit false

namespace Cuckoo.Hash

open Bytes

/-! ## Sessions -/

/-- What can be asked of a hash computation. -/
inductive Call where
  | write (piece : List UInt8)
  | digest

/-- The digests that are answered to a sequence of calls. -/
def answers {σ : Type} (write : σ → List UInt8 → σ) (digest : σ → Digest) : σ → List Call → List Digest
  | _, [] => []
  | s, .write piece :: calls => answers write digest (write s piece) calls
  | s, .digest :: calls => digest s :: answers write digest s calls

/-- The bytes written up to each time that a digest is asked for. -/
def heard (bytes : List UInt8) : List Call → List (List UInt8)
  | [] => []
  | .write piece :: calls => heard (bytes ++ piece) calls
  | .digest :: calls => bytes :: heard bytes calls

/-- Where a state stands for the bytes written so far, the digests are those of these bytes. -/
theorem answers_eq {σ : Type} {write : σ → List UInt8 → σ} {digest : σ → Digest}
    {expected : List UInt8 → Digest} (StandsFor : σ → List UInt8 → Prop)
    (kept : ∀ {s bytes}, StandsFor s bytes → ∀ piece, StandsFor (write s piece) (bytes ++ piece))
    (told : ∀ {s bytes}, StandsFor s bytes → digest s = expected bytes) :
    ∀ (calls : List Call) {s : σ} {bytes : List UInt8}, StandsFor s bytes →
      answers write digest s calls = (heard bytes calls).map expected := by
  intro calls
  induction calls with
  | nil => exact fun _ => rfl
  | cons call calls ih =>
    intro s bytes stands
    cases call with
    | write piece => exact ih (kept stands piece)
    | digest => rw [answers, heard, List.map_cons, told stands, ih stands]

/-- Pieces written one after the other are taken in as one. -/
theorem standsFor_foldl {σ : Type} {write : σ → List UInt8 → σ} (StandsFor : σ → List UInt8 → Prop)
    (kept : ∀ {s bytes}, StandsFor s bytes → ∀ piece, StandsFor (write s piece) (bytes ++ piece)) :
    ∀ (pieces : List (List UInt8)) {s : σ} {bytes : List UInt8}, StandsFor s bytes →
      StandsFor (pieces.foldl write s) (bytes ++ pieces.flatten) := by
  intro pieces
  induction pieces with
  | nil =>
    intro s bytes stands
    rwa [List.flatten_nil, List.append_nil]
  | cons piece pieces ih =>
    intro s bytes stands
    rw [List.flatten_cons, ← List.append_assoc]
    exact ih (kept stands piece)

/-! ## Byte by byte -/

/-- One more byte, of at most eight, goes above those before it. -/
theorem wordOfBytes_concat {bytes : List UInt8} (short : bytes.length < 8) (byte : UInt8) :
    wordOfBytes (bytes ++ [byte]) =
      wordOfBytes bytes ||| (byte.toUInt64 <<< (8 * bytes.length).toUInt64) := by
  have low : ofLittleEndian bytes < 2 ^ (8 * bytes.length) := by
    rw [Nat.pow_mul]
    exact ofLittleEndian_lt bytes
  have wide : 2 ^ (8 * bytes.length) ≤ 2 ^ 56 := Nat.pow_le_pow_right (by decide) (by omega)
  have high : byte.toNat <<< (8 * bytes.length) < 2 ^ 64 := by
    rw [Nat.shiftLeft_eq]
    calc byte.toNat * 2 ^ (8 * bytes.length) < 2 ^ 8 * 2 ^ (8 * bytes.length) :=
          Nat.mul_lt_mul_of_pos_right byte.toNat_lt (Nat.two_pow_pos _)
      _ ≤ 2 ^ 8 * 2 ^ 56 := Nat.mul_le_mul_left _ wide
  have amount : (8 * bytes.length).toUInt64.toNat % 64 = 8 * bytes.length := by
    simp [Nat.toUInt64]
    omega
  have size : (bytes ++ [byte]).length ≤ 8 := by
    rw [List.length_append]
    exact short
  apply UInt64.toNat.inj
  rw [UInt64.toNat_or, UInt64.toNat_shiftLeft, amount, UInt8.toNat_toUInt64, Nat.mod_eq_of_lt high,
    toNat_wordOfBytes size, toNat_wordOfBytes (Nat.le_of_lt short), ofLittleEndian_concat,
    Nat.shiftLeft_add_eq_or_of_lt low, Nat.or_comm]

namespace Stream

/-- The bytes of the open block are these, and there is room for another one. -/
structure Opens (s : Stream) (tail : List UInt8) : Prop where
  filled_eq : s.filled = tail.length
  short : tail.length < 16
  open₁_eq : s.open₁ = wordOfBytes tail
  open₂_eq : s.open₂ = wordOfBytes (tail.drop 8)

/-- The stream has taken in these bytes. -/
def StandsFor (seed : UInt64) (s : Stream) (bytes : List UInt8) : Prop :=
  ∃ whole tail, bytes = whole ++ tail ∧ Absorbed seed whole s.lanes s.mixed ∧ s.Opens tail

theorem standsFor_start (seed : UInt64) : StandsFor seed (start seed) [] :=
  ⟨[], [], rfl, absorbed_start seed, rfl, by decide, rfl, rfl⟩

theorem StandsFor.push {seed : UInt64} {s : Stream} {bytes : List UInt8}
    (stands : StandsFor seed s bytes) (byte : UInt8) :
    StandsFor seed (s.push byte) (bytes ++ [byte]) := by
  obtain ⟨whole, tail, rfl, absorbed, filled, short, first, second⟩ := stands
  rw [List.append_assoc]
  have size : (tail ++ [byte]).length = tail.length + 1 := List.length_append
  unfold Stream.push
  rw [filled]
  by_cases low : tail.length < 8
  · -- the byte goes into the first word, and the second one is still to begin
    rw [if_pos low]
    refine ⟨whole, tail ++ [byte], rfl, absorbed, size.symm, by omega, ?_, ?_⟩
    · rw [wordOfBytes_concat low, ← first]
    · rw [List.drop_eq_nil_of_le (by omega), second, List.drop_eq_nil_of_le (by omega)]
  rw [if_neg low]
  have begun : (tail.drop 8).length = tail.length - 8 := List.length_drop
  have kept : wordOfBytes (tail ++ [byte]) = s.open₁ := by
    rw [first, wordOfBytes_append (Nat.le_of_not_lt low)]
  have grown : wordOfBytes ((tail ++ [byte]).drop 8) =
      s.open₂ ||| (byte.toUInt64 <<< (8 * (tail.length - 8)).toUInt64) := by
    rw [List.drop_append_of_le_length (Nat.le_of_not_lt low), wordOfBytes_concat (by omega), begun,
      second]
  by_cases room : tail.length < 15
  · rw [if_pos room]
    exact ⟨whole, tail ++ [byte], rfl, absorbed, size.symm, by omega, kept.symm, grown.symm⟩
  · -- the byte is the last one of its block
    rw [if_neg room, ← kept, ← grown]
    have full : (tail ++ [byte]).length = 16 := by omega
    exact ⟨whole ++ (tail ++ [byte]), [], (List.append_nil _).symm, absorbed.block full, rfl,
      by decide, rfl, rfl⟩

theorem StandsFor.write {seed : UInt64} : ∀ {s : Stream} {bytes : List UInt8},
    StandsFor seed s bytes → ∀ piece, StandsFor seed (s.write piece) (bytes ++ piece) := by
  intro s bytes stands piece
  induction piece generalizing s bytes with
  | nil => rwa [List.append_nil]
  | cons byte piece ih =>
    have rest := ih (stands.push byte)
    rwa [List.append_assoc] at rest

theorem StandsFor.digest_eq {seed : UInt64} {s : Stream} {bytes : List UInt8}
    (stands : StandsFor seed s bytes) : s.digest = Murmur3.digest seed bytes := by
  obtain ⟨whole, tail, rfl, absorbed, filled, short, first, second⟩ := stands
  unfold Stream.digest
  rw [first, second, filled]
  exact absorbed.finish_eq short

theorem answers_eq_map (seed : UInt64) (calls : List Call) :
    answers write digest (start seed) calls = (heard [] calls).map (Murmur3.digest seed) :=
  answers_eq (StandsFor seed) StandsFor.write StandsFor.digest_eq calls (standsFor_start seed)

end Stream

/-! ## Piece by piece -/

namespace Buffer

@[simp] theorem length_waiting (b : Buffer) : b.waiting.length = b.filled := by
  unfold waiting
  rw [List.length_take, Vector.length_toList]
  omega

theorem getElem_overwrite (block : Vector UInt8 16) (place : Nat) (bytes : List UInt8) {i : Nat}
    (hi : i < 16) :
    (overwrite block place bytes)[i] =
      if place ≤ i then bytes.getD (i - place) block[i] else block[i] := by
  unfold overwrite
  rw [Vector.getElem_ofFn]
  rfl

/-- Bytes written over a block stand between those in front of them and those behind. -/
theorem toList_overwrite (block : Vector UInt8 16) (place : Nat) (bytes : List UInt8)
    (inside : place + bytes.length ≤ 16) :
    (overwrite block place bytes).toList =
      block.toList.take place ++ (bytes ++ block.toList.drop (place + bytes.length)) := by
  have front : (block.toList.take place).length = place := by
    rw [List.length_take, Vector.length_toList]
    omega
  apply List.ext_getElem
  · simp only [List.length_append, front, List.length_drop, Vector.length_toList]
    omega
  · intro i known _
    rw [Vector.length_toList] at known
    rw [Vector.getElem_toList, getElem_overwrite _ _ _ known, List.getElem_append]
    by_cases before : i < place
    · rw [if_neg (Nat.not_le_of_lt before), dif_pos (by omega), List.getElem_take,
        Vector.getElem_toList]
    rw [if_pos (Nat.le_of_not_lt before), dif_neg (by omega), List.getElem_append,
      List.getD_eq_getElem?_getD]
    simp only [front]
    by_cases written : i - place < bytes.length
    · rw [dif_pos written, List.getElem?_eq_getElem written, Option.getD_some]
    · rw [dif_neg written, List.getElem?_eq_none (Nat.le_of_not_lt written), Option.getD_none,
        List.getElem_drop, Vector.getElem_toList]
      congr 1
      omega

/-- Of what is behind bytes that were written nothing is looked at. -/
theorem take_overwrite (block : Vector UInt8 16) (place : Nat) (bytes : List UInt8)
    (inside : place + bytes.length ≤ 16) :
    (overwrite block place bytes).toList.take (place + bytes.length) =
      block.toList.take place ++ bytes := by
  have front : (block.toList.take place ++ bytes).length = place + bytes.length := by
    rw [List.length_append, List.length_take, Vector.length_toList, Nat.min_eq_left (by omega)]
  rw [toList_overwrite _ _ _ inside, ← List.append_assoc, ← front, List.take_left]

/-- The buffer has taken in these bytes. -/
def StandsFor (seed : UInt64) (b : Buffer) (bytes : List UInt8) : Prop :=
  ∃ whole, bytes = whole ++ b.waiting ∧ Absorbed seed whole b.lanes b.mixed

theorem standsFor_start (seed : UInt64) (block : Vector UInt8 16) :
    StandsFor seed { start seed with block } [] :=
  ⟨[], rfl, absorbed_start seed⟩

section

variable {seed : UInt64} {b : Buffer} {bytes : List UInt8} (stands : StandsFor seed b bytes)
include stands

/-- Completing a block takes bytes off the piece, and then none waits. -/
theorem StandsFor.complete {piece : List UInt8} (long : 16 ≤ b.filled + piece.length) :
    ∃ taken, piece = taken ++ (b.complete piece).2 ∧ (b.complete piece).1.filled.val = 0 ∧
      StandsFor seed (b.complete piece).1 (bytes ++ taken) := by
  obtain ⟨whole, rfl, absorbed⟩ := stands
  unfold Buffer.complete
  by_cases none : b.filled.val = 0
  · rw [if_pos none]
    exact ⟨[], rfl, none, whole, List.append_nil _, absorbed⟩
  · rw [if_neg none]
    have size : (piece.take (16 - b.filled)).length = 16 - b.filled := by
      rw [List.length_take]
      omega
    have full : (overwrite b.block b.filled (piece.take (16 - b.filled))).toList =
        b.waiting ++ piece.take (16 - b.filled) := by
      have written := take_overwrite b.block b.filled (piece.take (16 - b.filled)) (by omega)
      rwa [List.take_of_length_le (by rw [Vector.length_toList]; omega)] at written
    refine ⟨piece.take (16 - b.filled), (List.take_append_drop _ _).symm, rfl,
      whole ++ (b.waiting ++ piece.take (16 - b.filled)), ?_, ?_⟩
    · rw [List.append_assoc]
      exact (List.append_nil _).symm
    · dsimp only
      rw [full]
      refine absorbed.block ?_
      rw [List.length_append, size, length_waiting]
      omega

/-- What is left of a piece waits, behind its complete blocks. -/
theorem StandsFor.drain (none : b.filled.val = 0) (piece : List UInt8) :
    StandsFor seed (b.drain piece) (bytes ++ piece) := by
  obtain ⟨whole, rfl, absorbed⟩ := stands
  have empty : b.waiting = [] := List.eq_nil_of_length_eq_zero (by rw [length_waiting, none])
  have enough : 16 * (piece.length / 16) ≤ piece.length := Nat.mul_div_le _ _
  have rest : (piece.drop (16 * (piece.length / 16))).length = piece.length % 16 := by
    rw [List.length_drop]
    omega
  unfold Buffer.drain
  dsimp only
  rw [Digest.mixBlocks_rest, empty, List.append_nil]
  refine ⟨whole ++ piece.take (16 * (piece.length / 16)), ?_, absorbed.mixBlocks enough⟩
  · have kept := take_overwrite b.block 0 (piece.drop (16 * (piece.length / 16))) (by omega)
    rw [Nat.zero_add, rest, List.take_zero, List.nil_append] at kept
    unfold waiting
    rw [kept, List.append_assoc, List.take_append_drop]

theorem StandsFor.write (piece : List UInt8) : StandsFor seed (b.write piece) (bytes ++ piece) := by
  unfold Buffer.write
  split
  next room =>
    obtain ⟨whole, rfl, absorbed⟩ := stands
    refine ⟨whole, ?_, absorbed⟩
    unfold waiting
    rw [take_overwrite b.block b.filled piece (Nat.le_of_lt room), List.append_assoc]
  next long =>
    obtain ⟨taken, split, none, stands'⟩ := stands.complete (Nat.le_of_not_lt long)
    have rest := stands'.drain none (b.complete piece).2
    rwa [List.append_assoc, ← split] at rest

theorem StandsFor.digest_eq : b.digest = Murmur3.digest seed bytes := by
  obtain ⟨whole, rfl, absorbed⟩ := stands
  have short : b.waiting.length < 16 := by
    rw [length_waiting]
    exact b.filled.isLt
  have finish := absorbed.finish_eq short
  rwa [length_waiting] at finish

end

theorem answers_eq_map (seed : UInt64) (block : Vector UInt8 16) (calls : List Call) :
    answers write digest { start seed with block } calls =
      (heard [] calls).map (Murmur3.digest seed) :=
  answers_eq (StandsFor seed) StandsFor.write StandsFor.digest_eq calls (standsFor_start seed block)

end Buffer

/-- The key of an object is that of its pieces, put together. -/
theorem Item.key_eq (seed : UInt64) (item : Item) :
    item.key seed = .ofDigest (Murmur3.digest seed item.pieces.flatten) := by
  have stands := standsFor_foldl _ Stream.StandsFor.write item.pieces (Stream.standsFor_start seed)
  exact congrArg Key.ofDigest stands.digest_eq

theorem int32_eq (value : Int32) : int32 value =
    (Murmur3.digest 0 (littleEndian 4 value.toUInt32.toNat)).first.toUInt32.toInt32 := by
  unfold int32
  rw [Digest.ofBytes_eq_digest]

/-- **A digest depends on the concatenation of what was written and on nothing else.** Asked at any time
of a session, and as often as one likes, a buffer and a stream answer the digest that `Murmur3` gives for all
bytes written before, whatever the pieces were and whatever the block of the buffer held at the start. So the
key of an object is cut out of the digest of its concatenated pieces, the index from the low half of its
first word and the tag from the high half; and the hash of a number is that of its bytes. -/
theorem digest_of_concatenation (seed : UInt64) :
    (∀ (block : Vector UInt8 16) (calls : List Call),
      answers Buffer.write Buffer.digest { Buffer.start seed with block } calls =
        (heard [] calls).map (Murmur3.digest seed)) ∧
    (∀ calls : List Call, answers Stream.write Stream.digest (Stream.start seed) calls =
      (heard [] calls).map (Murmur3.digest seed)) ∧
    (∀ item : Item, item.key seed =
      ⟨(Murmur3.digest seed item.pieces.flatten).first.toUInt32.toInt32,
        ((Murmur3.digest seed item.pieces.flatten).first >>> 32).toUInt32⟩) ∧
    ∀ value : Int32, int32 value =
      (Murmur3.digest 0 (littleEndian 4 value.toUInt32.toNat)).first.toUInt32.toInt32 :=
  ⟨Buffer.answers_eq_map seed, Stream.answers_eq_map seed, Item.key_eq seed, int32_eq⟩

end Cuckoo.Hash

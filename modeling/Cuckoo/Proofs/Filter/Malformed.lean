import Cuckoo.Proofs.Filter.Layout
import Cuckoo.Proofs.Table.Bounded

/-!
# Bytes that hold no filter

Whatever is wrong with bytes, reading them ends with a report of malformed data: rules for arguments
that the bytes break are reported as such too, and no number leaves the range of 64 bits on the way.
The bytes of a filter are not read before the last one of them is there.
-/

set_option autoImplicit false

namespace Cuckoo

open Bytes Runs

/-! ## Reports -/

/-- Whatever goes wrong in a run is malformed data. -/
def FailsInData {α : Type} (x : Except Failure α) : Prop :=
  ∀ cause, x = .error cause → cause.report.kind = .invalidData

namespace FailsInData

variable {α β : Type}

theorem of_ok {a : α} : FailsInData (pure a : Except Failure α) := by
  intro cause run
  cases run

theorem of_throw {cause : Failure} (kind : cause.report.kind = .invalidData) :
    FailsInData (throw cause : Except Failure α) := by
  intro other run
  cases run
  exact kind

theorem of_mapError (x : Except Failure α) : FailsInData (x.mapError .inData) := by
  intro cause run
  cases x with
  | ok a => cases run
  | error first =>
    cases run
    rfl

theorem bind {x : Except Failure α} {f : α → Except Failure β} (first : FailsInData x)
    (rest : ∀ a, FailsInData (f a)) : FailsInData (x >>= f) := by
  intro cause run
  cases x with
  | ok a => exact rest a cause run
  | error _ =>
    cases run
    exact first _ rfl

theorem ite {c : Prop} [Decidable c] {x y : Except Failure α} (yes : FailsInData x)
    (no : FailsInData y) : FailsInData (if c then x else y) := by
  split
  · exact yes
  · exact no

end FailsInData

theorem Table.failsInData_ofWords (shape : Shape) (words : Array UInt64) (count : Nat) :
    FailsInData (Table.ofWords shape words count) := by
  refine (FailsInData.of_mapError _).bind fun _ => ?_
  refine FailsInData.ite (FailsInData.of_throw rfl) ?_
  exact FailsInData.ite (FailsInData.of_throw rfl) FailsInData.of_ok

namespace Filter

theorem Header.failsInData_expect {α : Type} (field : HeaderField) (value : Option α) :
    FailsInData (Header.expect field value) := by
  cases value with
  | some a => exact FailsInData.of_ok
  | none => exact FailsInData.of_throw rfl

theorem Header.failsInData_read (bytes : List UInt8) : FailsInData (Header.read bytes) := by
  refine (failsInData_expect _ _).bind fun _ => ?_
  refine (failsInData_expect _ _).bind fun _ => ?_
  refine (failsInData_expect _ _).bind fun _ => ?_
  refine (failsInData_expect _ _).bind fun _ => ?_
  refine (failsInData_expect _ _).bind fun _ => ?_
  exact (failsInData_expect _ _).bind fun _ => FailsInData.of_ok

theorem failsInData_ofOrdinal (ordinal : Int32) : FailsInData (Scheme.ofOrdinal ordinal) := by
  unfold Scheme.ofOrdinal
  split
  · exact FailsInData.of_ok
  · exact FailsInData.of_throw rfl

theorem Header.failsInData_natural (field : HeaderField) (value : Int) :
    FailsInData (Header.natural field value) :=
  FailsInData.ite (FailsInData.of_throw rfl) FailsInData.of_ok

theorem failsInData_decode (bytes : List UInt8) (seed : UInt64) : FailsInData (decode bytes seed) := by
  refine (Header.failsInData_read bytes).bind fun (header, bytes) => ?_
  refine (failsInData_ofOrdinal _).bind fun scheme => ?_
  refine (Header.failsInData_natural _ _).bind fun buckets => ?_
  refine (FailsInData.of_mapError _).bind fun _ => ?_
  refine (Header.failsInData_natural _ _).bind fun slots => ?_
  refine (Header.failsInData_natural _ _).bind fun bits => ?_
  refine (Header.failsInData_natural _ _).bind fun count => ?_
  refine (Header.failsInData_natural _ _).bind fun wordCount => ?_
  cases readWords wordCount bytes with
  | none => exact FailsInData.of_throw rfl
  | some read => exact (Table.failsInData_ofWords _ _ _).bind fun _ => FailsInData.of_ok

/-! ## Bounded numbers -/

/-- Reading in bounded numbers. The room for the words is set aside before they are read, and the run is
stuck if that is more than the bytes that are left. -/
def decode? (bytes : List UInt8) (seed : UInt64) : Bounded Filter := do
  let (header, bytes) ← .ofExcept (Header.read bytes)
  let scheme ← .ofExcept (Scheme.ofOrdinal header.ordinal)
  let buckets ← .ofExcept (Header.natural .buckets header.buckets.toInt)
  .ofExcept ((scheme.placement.check (UInt64.ofNat buckets)).mapError .inData)
  let slots ← .ofExcept (Header.natural .slots header.slots.toInt)
  let bits ← .ofExcept (Header.natural .bits header.bits.toInt)
  let count ← .ofExcept (Header.natural .count header.count.toInt)
  let wordCount ← .ofExcept (Header.natural .words header.words.toInt)
  if bytes.length / 8 < wordCount then throw (.truncatedWords wordCount bytes.length)
  else do
    ExceptT.lift (if 8 * wordCount ≤ bytes.length then some () else none)
    let (words, _) ← ExceptT.lift (readWords wordCount bytes)
    let table ← Table.ofWords? ⟨buckets, slots, bits⟩ words.toArray count
    pure ⟨scheme, seed, defaultBudget, ⟨table, Draw.Keystream.ofSeed defaultVictimSeed⟩⟩

/-- **Reading is never stuck**, whatever the bytes are. -/
theorem decode?_eq (bytes : List UInt8) (seed : UInt64) :
    decode? bytes seed = .ofExcept (decode bytes seed) := by
  refine Bounded.ofExcept_bind fun (header, bytes) _ => ?_
  refine Bounded.ofExcept_bind fun scheme _ => ?_
  refine Bounded.ofExcept_bind fun buckets _ => ?_
  refine Bounded.ofExcept_bind fun _ _ => ?_
  refine Bounded.ofExcept_bind fun slots _ => ?_
  refine Bounded.ofExcept_bind fun bits _ => ?_
  refine Bounded.ofExcept_bind fun count _ => ?_
  refine Bounded.ofExcept_bind fun wordCount _ => ?_
  dsimp only
  cases read : readWords wordCount bytes with
  | none =>
    have short : ¬ 8 * wordCount ≤ bytes.length := by
      intro enough
      obtain ⟨words, rest, found⟩ := exists_readWords_iff.mpr enough
      cases read.symm.trans found
    rw [if_pos (by omega)]
    rfl
  | some answer =>
    obtain ⟨words, rest⟩ := answer
    have enough : 8 * wordCount ≤ bytes.length := exists_readWords_iff.mp ⟨words, rest, read⟩
    rw [if_neg (by omega), if_pos enough]
    show (Table.ofWords? _ _ _ >>= _) = _
    rw [Table.ofWords?_eq]
    exact Bounded.ofExcept_bind fun table _ => rfl

/-! ## Parts of the bytes of a filter -/

/-- What is read is written as the bytes that it was read from, up to the last word. -/
theorem encode_eq_take_of_decode {bytes : List UInt8} {seed : UInt64} {g : Filter}
    (run : decode bytes seed = .ok g) :
    g.encode = bytes.take (36 + 8 * (Numbers.ofBytes bytes).words.toNat) := by
  rw [ofBytes_of_decode run]
  obtain ⟨-, -, -, rest, rfl⟩ := decode_eq_ok_iff.mp run
  exact (List.take_left' g.length_encode).symm

/-- **The bytes of a filter are all needed**: those before the last one are not read as any filter. -/
theorem exists_error_of_prefix {f : Filter} (s : f.Sound) {k : Nat} (short : k < f.encode.length)
    (seed : UInt64) : ∃ cause, decode (f.encode.take k) seed = .error cause := by
  cases run : decode (f.encode.take k) seed with
  | error cause => exact ⟨cause, rfl⟩
  | ok g =>
    exfalso
    obtain ⟨s', fits, same, rest, part⟩ := decode_eq_ok_iff.mp run
    -- then the bytes of the other filter begin with those of this one, so they hold the same table
    have whole : f.encode = g.encode ++ (rest ++ f.encode.drop k) := by
      rw [← List.append_assoc, ← part, List.take_append_drop]
    obtain ⟨-, table⟩ := decode_encode s (decode_eq_ok_iff.mpr ⟨s', fits, same, _, whole⟩)
    have size : g.encode.length = f.encode.length := by
      rw [length_encode, length_encode, table]
    have length := congrArg List.length part
    rw [List.length_take, List.length_append] at length
    omega

end Filter

end Cuckoo

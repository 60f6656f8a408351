import Cuckoo.Proofs.Filter.Reload

/-!
# Reading accepts exactly what writing produces

`decode_eq_ok_iff` says which bytes are read as which filter: **the bytes that writing this filter
produces, and then whatever follows**. So every filter has one written form, reading never guesses, and
whether a filter can be read back depends on two of its numbers only, the ones that the header may
have to cut.
-/

set_option autoImplicit false

namespace Cuckoo

open Bytes Runs

namespace Filter

/-- A filter as it is read back: the budget is the usual one, and the generator is fresh. -/
def asRead (f : Filter) (seed : UInt64) : Filter :=
  ⟨f.scheme, seed, defaultBudget, ⟨f.table, Draw.Keystream.ofSeed defaultVictimSeed⟩⟩

/-- The header has room for the numbers of the filter. The other ones are small in every table. -/
structure HeaderFits (f : Filter) : Prop where
  slots_lt : f.table.shape.slots < 2 ^ 31
  count_lt : f.table.count < 2 ^ 63

/-- The header says of a filter what is true of it. -/
structure Header.Describes (h : Header) (f : Filter) : Prop where
  ordinal : h.ordinal = f.scheme.ordinal
  buckets : h.buckets.toInt = f.table.shape.buckets
  slots : h.slots.toInt = f.table.shape.slots
  bits : h.bits.toInt = f.table.shape.bits
  count : h.count.toInt = f.table.count
  words : h.words.toInt = f.table.words.size

/-- A header that has room for the numbers of a filter describes it. -/
theorem describes_ofFilter {f : Filter} (s : f.Sound) (fits : f.HeaderFits) :
    (Header.ofFilter f).Describes f := by
  have h : f.table.WellFormed := s.wellFormed
  exact ⟨rfl, Int64.toInt_ofNat_of_lt h.buckets_lt, Int32.toInt_ofNat_of_lt fits.slots_lt,
    Int32.toInt_ofNat_of_lt (Nat.lt_of_le_of_lt h.bits_le (by decide)),
    Int64.toInt_ofNat_of_lt fits.count_lt, Int64.toInt_ofNat_of_lt h.size_words_lt⟩

section

variable {h : Header} {f : Filter} (d : h.Describes f)
include d

/-- No other header describes the filter. -/
theorem Header.Describes.eq_ofFilter : h = Header.ofFilter f := by
  have wide : ∀ {x : Int64} {n : Nat}, x.toInt = n → x = Int64.ofNat n := by
    intro x n value
    rw [← Int64.ofInt_toInt x, value]
    rfl
  have narrow : ∀ {x : Int32} {n : Nat}, x.toInt = n → x = Int32.ofNat n := by
    intro x n value
    rw [← Int32.ofInt_toInt x, value]
    rfl
  obtain ⟨ordinal, buckets, slots, bits, count, words⟩ := h
  rw [Header.ofFilter, ← wide d.buckets, ← narrow d.slots, ← narrow d.bits, ← wide d.count,
    ← wide d.words, ← d.ordinal]

theorem Header.Describes.headerFits : f.HeaderFits := by
  have slots := h.slots.toInt_lt
  have count := h.count.toInt_lt
  rw [d.slots] at slots
  rw [d.count] at count
  exact ⟨by omega, by omega⟩

end

theorem ofOrdinal_eq_ok_iff {ordinal : Int32} {s : Scheme} :
    Scheme.ofOrdinal ordinal = .ok s ↔ ordinal = s.ordinal := by
  constructor
  · intro run
    unfold Scheme.ofOrdinal at run
    split at run
    next found =>
      cases run
      have same := List.find?_some found
      exact (beq_iff_eq.mp same).symm
    next => cases run
  · rintro rfl
    exact ofOrdinal_ordinal s

theorem expect_eq_ok_iff {α : Type} {field : HeaderField} {read : Option α} {a : α} :
    Header.expect field read = .ok a ↔ read = some a := by
  cases read with
  | none => exact ⟨fun h => (by cases h), fun h => (by cases h)⟩
  | some b => exact ⟨fun h => (by cases h; rfl), fun h => (by cases h; rfl)⟩

/-- The bytes that were read as a header are those of its fields. -/
theorem eq_fields_of_read {bytes rest : List UInt8} {h : Header}
    (run : Header.read bytes = .ok (h, rest)) : bytes = Field.encodeAll h.fields ++ rest := by
  unfold Header.read at run
  simp only [bind_eq_ok_iff, expect_eq_ok_iff, Prod.exists] at run
  obtain ⟨ordinal, _, first, buckets, _, second, slots, _, third, bits, _, fourth, count, _, fifth,
    words, _, sixth, run⟩ := run
  cases run
  rw [eq_encode_of_readInt32 first, eq_encode_of_readInt64 second, eq_encode_of_readInt32 third,
    eq_encode_of_readInt32 fourth, eq_encode_of_readInt64 fifth, eq_encode_of_readInt64 sixth]
  simp [Header.fields]

/-- Bytes that begin with a header which describes a sound filter, and go on with its words, are read
as this filter. -/
theorem decode_of_describes {g : Filter} (s : g.Sound) {h : Header} (d : h.Describes g)
    (seed : UInt64) (rest : List UInt8) :
    decode (Field.encodeAll h.fields ++ (Field.encodeAll (g.table.words.toList.map .word) ++ rest))
      seed = .ok (g.asRead seed) := by
  have wf : g.table.WellFormed := s.wellFormed
  have made : Table.ofWords ⟨g.table.shape.buckets, g.table.shape.slots, g.table.shape.bits⟩
      g.table.words g.table.count = .ok g.table := wf.ofWords_eq
  have accepts : (g.scheme.placement.check (UInt64.ofNat g.table.shape.buckets)).mapError
      Failure.inData = .ok () := mapError_eq_ok_iff.mpr s.accepts
  unfold decode
  rw [read_fields, ok_bind]
  dsimp only
  rw [ofOrdinal_eq_ok_iff.mpr d.ordinal, ok_bind,
    natural_eq_ok_iff.mpr d.buckets, ok_bind, accepts, ok_bind,
    natural_eq_ok_iff.mpr d.slots, ok_bind, natural_eq_ok_iff.mpr d.bits, ok_bind,
    natural_eq_ok_iff.mpr d.count, ok_bind, natural_eq_ok_iff.mpr d.words, ok_bind, ← Array.length_toList, readWords_encodeAll]
  dsimp only
  rw [Array.toArray_toList, made]
  rfl

/-- What bytes are read as is described by the header that they begin with, and its words follow. -/
theorem exists_header_of_decode {bytes : List UInt8} {seed : UInt64} {g : Filter}
    (run : decode bytes seed = .ok g) :
    ∃ (h : Header) (rest : List UInt8), h.Describes g ∧ g = g.asRead seed ∧ bytes =
      Field.encodeAll h.fields ++ (Field.encodeAll (g.table.words.toList.map .word) ++ rest) := by
  unfold decode at run
  obtain ⟨⟨h, after⟩, header, run⟩ := bind_eq_ok_iff.mp run
  obtain ⟨scheme, ordinal, run⟩ := bind_eq_ok_iff.mp run
  obtain ⟨buckets, hbuckets, run⟩ := bind_eq_ok_iff.mp run
  obtain ⟨_, -, run⟩ := bind_eq_ok_iff.mp run
  obtain ⟨slots, hslots, run⟩ := bind_eq_ok_iff.mp run
  obtain ⟨bits, hbits, run⟩ := bind_eq_ok_iff.mp run
  obtain ⟨count, hcount, run⟩ := bind_eq_ok_iff.mp run
  obtain ⟨wordCount, hwords, run⟩ := bind_eq_ok_iff.mp run
  split at run
  next => cases run
  next words rest taken =>
    obtain ⟨table, made, run⟩ := bind_eq_ok_iff.mp run
    cases run
    obtain ⟨-, rfl⟩ := Table.wellFormed_ofWords made
    obtain ⟨rfl, rfl⟩ := eq_encodeAll_of_readWords taken
    have d : h.Describes ⟨scheme, seed, defaultBudget,
        ⟨⟨⟨buckets, slots, bits⟩, words.toArray, count⟩, Draw.Keystream.ofSeed defaultVictimSeed⟩⟩ :=
      ⟨ofOrdinal_eq_ok_iff.mp ordinal, natural_eq_ok_iff.mp hbuckets, natural_eq_ok_iff.mp hslots,
        natural_eq_ok_iff.mp hbits, natural_eq_ok_iff.mp hcount, natural_eq_ok_iff.mp hwords⟩
    exact ⟨h, rest, d, rfl, eq_fields_of_read header⟩

/-- **Reading accepts exactly what writing produces.** Bytes are read as a sound filter whose numbers
fit the header, if they are the bytes of this filter, followed by anything. -/
theorem decode_eq_ok_iff {bytes : List UInt8} {seed : UInt64} {g : Filter} :
    decode bytes seed = .ok g ↔
      g.Sound ∧ g.HeaderFits ∧ g = g.asRead seed ∧ ∃ rest, bytes = g.encode ++ rest := by
  constructor
  · intro run
    obtain ⟨h, rest, d, same, split⟩ := exists_header_of_decode run
    refine ⟨(sound_of_decode run).1, d.headerFits, same, rest, ?_⟩
    rw [split, encode, encodeAll_append, d.eq_ofFilter, List.append_assoc]
  · rintro ⟨s, fits, same, rest, rfl⟩
    rw [encode, encodeAll_append, List.append_assoc,
      decode_of_describes s (describes_ofFilter s fits), ← same]

theorem length_encode (f : Filter) : f.encode.length = headerSize + 8 * f.table.words.size := by
  unfold encode
  rw [encodeAll_append, List.length_append, length_encodeAll_words, Array.length_toList]
  simp [Header.fields, Field.kind, Kind.size, headerSize]

/-- A filter whose numbers fit the header is read back, whatever its budget and its generator. -/
theorem decode_encode_of_fits {f : Filter} (s : f.Sound) (fits : f.HeaderFits) (seed : UInt64) :
    decode f.encode seed = .ok (f.asRead seed) :=
  decode_eq_ok_iff.mpr ⟨⟨s.wellFormed, s.accepts⟩, ⟨fits.slots_lt, fits.count_lt⟩, rfl,
    [], (List.append_nil _).symm⟩

/-- **A filter can be read back exactly if its numbers fit the header.** -/
theorem exists_decode_encode_iff {f : Filter} (s : f.Sound) (seed : UInt64) :
    (∃ g, decode f.encode seed = .ok g) ↔ f.HeaderFits := by
  constructor
  · rintro ⟨g, run⟩
    obtain ⟨-, same⟩ := decode_encode s run
    obtain ⟨-, ⟨slots_lt, count_lt⟩, -⟩ := decode_eq_ok_iff.mp run
    rw [same] at slots_lt count_lt
    exact ⟨slots_lt, count_lt⟩
  · exact fun fits => ⟨_, decode_encode_of_fits s fits seed⟩

end Filter

end Cuckoo

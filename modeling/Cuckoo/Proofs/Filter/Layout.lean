import Cuckoo.Proofs.Filter.Canonical
import Cuckoo.Proofs.Placement.Lawful
import Cuckoo.Proofs.Table.Grid

/-!
# The byte format, place by place

`Formatted` describes the byte strings that hold a filter by what stands at which place, with no word
of how they are read: six numbers at fixed places, what they have to be, and how many slots have a bit
that is set. **These and no other byte strings are read** (`exists_decode_iff`).

The number of fingerprints is judged by the bits: a slot is in use if one of its bits is set, and bit
`j` of all slots is bit `j % 64` of the number in the word `j / 64`.
-/

set_option autoImplicit false

namespace Cuckoo

open BitString Bytes Runs

namespace Filter

/-! ## What stands where -/

/-- The numbers in front of the words. -/
structure Numbers where
  ordinal : Int
  buckets : Int
  slots : Int
  bits : Int
  count : Int
  words : Int

namespace Numbers

def ofBytes (bytes : List UInt8) : Numbers where
  ordinal := signedAt bytes 0 4
  buckets := signedAt bytes 4 8
  slots := signedAt bytes 12 4
  bits := signedAt bytes 16 4
  count := signedAt bytes 20 8
  words := signedAt bytes 28 8

def totalBits (n : Numbers) : Int := n.buckets * n.slots * n.bits

/-- The bucket counts of each placement rule: positive even ones, and powers of two. -/
def Placeable (ordinal buckets : Int) : Prop :=
  (ordinal = 0 ∧ 0 < buckets ∧ buckets % 2 = 0) ∨
    (ordinal = 1 ∧ ∃ k : Nat, k ≤ 62 ∧ buckets = (2 ^ k : Nat))

/-- Numbers that describe a table, for a placement rule that takes it. -/
structure Valid (n : Numbers) : Prop where
  placement : Placeable n.ordinal n.buckets
  two_le_slots : 2 ≤ n.slots
  one_le_bits : 1 ≤ n.bits
  bits_le : n.bits ≤ 64
  totalBits_lt : n.totalBits < (2 ^ 64 : Nat)
  words_eq : n.words = (n.totalBits + 63) / 64

end Numbers

/-- Bit `j` of the slots. -/
def packedBit (bytes : List UInt8) (j : Nat) : Bool :=
  (unsignedAt bytes (36 + 8 * (j / 64)) 8).testBit (j % 64)

/-- How many of the first slots of a width have a bit that is set. -/
def usedSlots (bytes : List UInt8) (slots bits : Nat) : Nat :=
  (List.range slots).countP fun place =>
    (List.range bits).any fun i => packedBit bytes (place * bits + i)

/-- The byte strings that hold a filter. What follows the words does not matter. -/
structure Formatted (bytes : List UInt8) : Prop where
  header : 36 ≤ bytes.length
  valid : (Numbers.ofBytes bytes).Valid
  complete : 36 + 8 * (Numbers.ofBytes bytes).words ≤ bytes.length
  count_eq : (Numbers.ofBytes bytes).count =
    usedSlots bytes ((Numbers.ofBytes bytes).buckets * (Numbers.ofBytes bytes).slots).toNat
      (Numbers.ofBytes bytes).bits.toNat

/-! ## Read from what was written -/

theorem ofBytes_fields (h : Header) (rest : List UInt8) :
    Numbers.ofBytes (Field.encodeAll h.fields ++ rest) =
      ⟨h.ordinal.toInt, h.buckets.toInt, h.slots.toInt, h.bits.toInt, h.count.toInt,
        h.words.toInt⟩ := by
  have ordinal := signedAt_int32 [] h.ordinal
  have buckets := signedAt_int64 (Field.encodeAll [.int32 h.ordinal]) h.buckets
  have slots := signedAt_int32 (Field.encodeAll [.int32 h.ordinal, .int64 h.buckets]) h.slots
  have bits := signedAt_int32
    (Field.encodeAll [.int32 h.ordinal, .int64 h.buckets, .int32 h.slots]) h.bits
  have count := signedAt_int64
    (Field.encodeAll [.int32 h.ordinal, .int64 h.buckets, .int32 h.slots, .int32 h.bits]) h.count
  have words := signedAt_int64 (Field.encodeAll [.int32 h.ordinal, .int64 h.buckets,
    .int32 h.slots, .int32 h.bits, .int64 h.count]) h.words
  simp only [encodeAll_cons, encodeAll_nil, List.append_nil, List.nil_append, List.append_assoc,
    List.length_nil, List.length_append, Bytes.length_encode, Field.kind, Kind.size]
    at ordinal buckets slots bits count words
  unfold Numbers.ofBytes Header.fields
  simp only [encodeAll_cons, encodeAll_nil, List.append_nil, List.append_assoc]
  rw [ordinal, buckets, slots, bits, count, words]

theorem length_fields (h : Header) : (Field.encodeAll h.fields).length = 36 := by
  simp [Header.fields, Field.kind, Kind.size]

theorem packedBit_eq (h : Header) (words : Array UInt64) (rest : List UInt8) {j : Nat}
    (inside : j < 64 * words.size) :
    packedBit (Field.encodeAll h.fields ++ (Field.encodeAll (words.toList.map .word) ++ rest)) j =
      bit words j := by
  have place : j / 64 < words.toList.length := by
    rw [Array.length_toList]
    omega
  have found := unsignedAt_words (Field.encodeAll h.fields) words.toList rest place
  rw [length_fields] at found
  rw [packedBit, found, bit, Array.getD_eq_getD_getElem?, Array.getElem?_eq_getElem place]
  rfl

/-- The slots in use are counted right where the words of a table were written. -/
theorem usedSlots_eq (h : Header) {t : Table} (wf : t.WellFormed) (rest : List UInt8) :
    usedSlots (Field.encodeAll h.fields ++ (Field.encodeAll (t.words.toList.map .word) ++ rest))
      t.capacity t.shape.bits = t.count := by
  rw [wf.count_eq_countP]
  refine List.countP_congr fun place mem => ?_
  have last : (place + 1) * t.shape.bits ≤ t.shape.totalBits :=
    Nat.mul_le_mul_right _ (List.mem_range.mp mem)
  have whole := wf.totalBits_le
  rw [Nat.succ_mul] at last
  rw [List.any_eq_true, List.any_eq_true]
  refine exists_congr fun i => and_congr_right fun low => ?_
  have below := List.mem_range.mp low
  rw [packedBit_eq h t.words rest (by omega)]

theorem exists_fields {bytes : List UInt8} (long : 36 ≤ bytes.length) :
    ∃ (h : Header) (rest : List UInt8), bytes = Field.encodeAll h.fields ++ rest := by
  obtain ⟨ordinal, rest₁, rfl, left₁⟩ := exists_int32 (show 4 + 32 ≤ bytes.length from long)
  obtain ⟨buckets, rest₂, rfl, left₂⟩ := exists_int64 (show 8 + 24 ≤ rest₁.length from left₁)
  obtain ⟨slots, rest₃, rfl, left₃⟩ := exists_int32 (show 4 + 20 ≤ rest₂.length from left₂)
  obtain ⟨bits, rest₄, rfl, left₄⟩ := exists_int32 (show 4 + 16 ≤ rest₃.length from left₃)
  obtain ⟨count, rest₅, rfl, left₅⟩ := exists_int64 (show 8 + 8 ≤ rest₄.length from left₄)
  obtain ⟨words, rest₆, rfl, -⟩ := exists_int64 (show 8 + 0 ≤ rest₅.length from left₅)
  exact ⟨⟨ordinal, buckets, slots, bits, count, words⟩, rest₆, by simp [Header.fields]⟩

/-! ## Valid numbers -/

theorem accepts_iff (s : Scheme) {m : Nat} (lt : m < 2 ^ 63) :
    s.placement.Accepts (UInt64.ofNat m) ↔ Numbers.Placeable s.ordinal.toInt m := by
  unfold Numbers.Placeable
  cases s with
  | parityOffset =>
    have ordinal : Scheme.parityOffset.ordinal.toInt = 0 := rfl
    rw [Scheme.placement, Placement.parityOffset_accepts_ofNat_iff lt, ordinal]
    omega
  | xor =>
    have ordinal : Scheme.xor.ordinal.toInt = 1 := rfl
    rw [Scheme.placement, Placement.xor_accepts_ofNat_iff lt, ordinal]
    simp only [Int.one_ne_zero, false_and, false_or, true_and]
    norm_cast

theorem Numbers.Placeable.buckets_pos {ordinal buckets : Int} (h : Placeable ordinal buckets) :
    0 < buckets := by
  obtain ⟨-, pos, -⟩ | ⟨-, k, -, rfl⟩ := h
  · exact pos
  · exact Int.natCast_pos.mpr (Nat.two_pow_pos k)

theorem valid_iff {s : Scheme} {shape : Shape} {count : Int} {words : Nat}
    (lt : shape.buckets < 2 ^ 63) :
    (Numbers.mk s.ordinal.toInt shape.buckets shape.slots shape.bits count words).Valid ↔
      s.placement.Accepts (UInt64.ofNat shape.buckets) ∧ shape.check = .ok () ∧
        words = shape.words := by
  have total : (Numbers.mk s.ordinal.toInt shape.buckets shape.slots shape.bits count
      words).totalBits = shape.totalBits := by
    unfold Numbers.totalBits Shape.totalBits Shape.capacity
    push_cast
    rfl
  rw [accepts_iff s lt, Shape.check_eq_ok_iff, Shape.words]
  constructor
  · rintro ⟨placement, slots, one, sixtyfour, small, words⟩
    rw [total] at small words
    have pos := placement.buckets_pos
    dsimp only at pos slots one sixtyfour words
    exact ⟨placement, ⟨by omega, by omega, by omega, by omega, by omega⟩, by omega⟩
  · rintro ⟨placement, ⟨-, slots, one, sixtyfour, small⟩, rfl⟩
    refine ⟨placement, Int.ofNat_le.mpr slots, Int.ofNat_le.mpr one, Int.ofNat_le.mpr sixtyfour,
      ?_, ?_⟩
    · rw [total]
      exact Int.ofNat_lt.mpr small
    · rw [total]
      rfl

/-- Valid numbers are not negative, and those of a table. -/
theorem Numbers.Valid.exists_shape {n : Numbers} (valid : n.Valid) (lt : n.buckets < (2 ^ 63 : Nat)) :
    ∃ (s : Scheme) (shape : Shape), n.ordinal = s.ordinal.toInt ∧ n.buckets = shape.buckets ∧
      n.slots = shape.slots ∧ n.bits = shape.bits ∧ n.words = shape.words ∧
      s.placement.Accepts (UInt64.ofNat shape.buckets) ∧ shape.check = .ok () := by
  obtain ⟨s, ordinal⟩ : ∃ s : Scheme, n.ordinal = s.ordinal.toInt := by
    obtain ⟨zero, -⟩ | ⟨one, -⟩ := valid.placement
    · exact ⟨.parityOffset, zero⟩
    · exact ⟨.xor, one⟩
  obtain ⟨m, buckets⟩ : ∃ m : Nat, n.buckets = m :=
    Int.eq_ofNat_of_zero_le (Int.le_of_lt valid.placement.buckets_pos)
  obtain ⟨k, slots⟩ : ∃ k : Nat, n.slots = k :=
    Int.eq_ofNat_of_zero_le (Int.le_trans (by decide) valid.two_le_slots)
  obtain ⟨b, bits⟩ : ∃ b : Nat, n.bits = b :=
    Int.eq_ofNat_of_zero_le (Int.le_trans (by decide) valid.one_le_bits)
  have words : n.words = (Shape.mk m k b).words := by
    rw [valid.words_eq, Numbers.totalBits, buckets, slots, bits]
    rfl
  have whole : n = ⟨s.ordinal.toInt, (Shape.mk m k b).buckets, (Shape.mk m k b).slots,
      (Shape.mk m k b).bits, n.count, (Shape.mk m k b).words⟩ := by
    rw [← ordinal, ← words, ← buckets, ← slots, ← bits]
  rw [whole] at valid
  obtain ⟨accepts, ok, -⟩ := (valid_iff (show m < 2 ^ 63 by omega)).mp valid
  exact ⟨s, ⟨m, k, b⟩, ordinal, buckets, slots, bits, words, accepts, ok⟩

/-! ## What is read -/

/-- The numbers in front are those of the filter that is read. -/
theorem ofBytes_of_decode {bytes : List UInt8} {seed : UInt64} {g : Filter}
    (run : decode bytes seed = .ok g) : Numbers.ofBytes bytes =
      ⟨g.scheme.ordinal.toInt, g.table.shape.buckets, g.table.shape.slots, g.table.shape.bits,
        g.table.count, g.table.words.size⟩ := by
  obtain ⟨h, rest, d, -, rfl⟩ := exists_header_of_decode run
  rw [ofBytes_fields, d.ordinal, d.buckets, d.slots, d.bits, d.count, d.words]

theorem formatted_of_decode {bytes : List UInt8} {seed : UInt64} {g : Filter}
    (run : decode bytes seed = .ok g) : Formatted bytes := by
  have wf : g.table.WellFormed := (sound_of_decode run).1.wellFormed
  have numbers := ofBytes_of_decode run
  obtain ⟨h, rest, -, -, rfl⟩ := exists_header_of_decode run
  have length : (Field.encodeAll h.fields ++
      (Field.encodeAll (g.table.words.toList.map .word) ++ rest)).length =
        36 + (8 * g.table.words.size + rest.length) := by
    rw [List.length_append, List.length_append, length_fields, length_encodeAll_words,
      Array.length_toList]
  refine ⟨?_, ?_, ?_, ?_⟩
  · omega
  · rw [numbers, valid_iff wf.buckets_lt]
    exact ⟨(sound_of_decode run).1.accepts, wf.shape_ok, wf.size_words⟩
  · rw [numbers]
    dsimp only
    omega
  · rw [numbers]
    exact congrArg Nat.cast (usedSlots_eq h wf rest).symm

theorem exists_decode_of_formatted {bytes : List UInt8} (formatted : Formatted bytes)
    (seed : UInt64) : ∃ g, decode bytes seed = .ok g := by
  obtain ⟨long, valid, complete, counted⟩ := formatted
  obtain ⟨h, rest, rfl⟩ := exists_fields long
  rw [List.length_append, length_fields] at complete
  rw [ofBytes_fields] at valid complete counted
  obtain ⟨s, shape, ordinal, buckets, slots, bits, required, accepts, ok⟩ :=
    valid.exists_shape h.buckets.toInt_lt
  dsimp only at ordinal buckets slots bits required complete counted
  have room : 8 * shape.words ≤ rest.length := by omega
  obtain ⟨words, after, read⟩ := exists_readWords_iff.mpr room
  obtain ⟨size, rfl⟩ := eq_encodeAll_of_readWords read
  -- the words make a table with some count; that it is the one in the header is seen from its bits
  obtain ⟨t, rfl, rfl, wf⟩ :
      ∃ t : Table, t.shape = shape ∧ t.words.toList = words ∧ t.WellFormed :=
    ⟨⟨shape, words.toArray, (Table.mk shape words.toArray 0).entries.length⟩, rfl, rfl,
      ok, List.size_toArray.trans size, rfl⟩
  have count : h.count.toInt = t.count := by
    rw [counted, buckets, slots, bits]
    exact congrArg Nat.cast (usedSlots_eq h wf after)
  have required : h.words.toInt = t.words.size :=
    required.trans (congrArg Nat.cast wf.size_words.symm)
  have sound : Filter.Sound
      ⟨s, seed, defaultBudget, ⟨t, Draw.Keystream.ofSeed defaultVictimSeed⟩⟩ := ⟨wf, accepts⟩
  exact ⟨_, decode_of_describes sound
    ⟨Int32.toInt_inj.mp ordinal, buckets, slots, bits, count, required⟩ seed after⟩

/-- **The byte strings that hold a filter, and no others, are read.** -/
theorem exists_decode_iff {bytes : List UInt8} {seed : UInt64} :
    (∃ g, decode bytes seed = .ok g) ↔ Formatted bytes := by
  constructor
  · rintro ⟨g, run⟩
    exact formatted_of_decode run
  · exact fun formatted => exists_decode_of_formatted formatted seed

end Filter

end Cuckoo

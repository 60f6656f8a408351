import Cuckoo.Bytes.Field
import Cuckoo.Proofs.Bytes.Endian

/-!
# Reading back what was written

A reader takes from the front of its input exactly the bytes of one field. So **a field that was
written is read back, and what follows it is left**, whatever it is. The other way round, what was
read is what was written: **the bytes that a reader took are those of the value it gave**. Sequences
of fields are read one after the other.

`unsignedAt` and `signedAt` find a number by its place, without reading what stands before it.
-/

set_option autoImplicit false

namespace Cuckoo.Bytes

theorem take?_append {count : Nat} {front : List UInt8} (h : front.length = count)
    (rest : List UInt8) : take? count (front ++ rest) = some (front, rest) := by
  subst h
  rw [take?_eq, if_pos (by simp), List.take_left, List.drop_left]

/-- What splitting gives back is the front, of the wanted size, and the rest. -/
theorem take?_eq_some_iff {count : Nat} {bytes front rest : List UInt8} :
    take? count bytes = some (front, rest) ↔ front.length = count ∧ bytes = front ++ rest := by
  constructor
  · intro h
    rw [take?_eq, Option.ite_none_right_eq_some] at h
    obtain ⟨enough, h⟩ := h
    cases h
    exact ⟨List.length_take_of_le enough, (List.take_append_drop count bytes).symm⟩
  · rintro ⟨size, rfl⟩
    exact take?_append size rest

theorem exists_take? {count : Nat} {bytes : List UInt8} (enough : count ≤ bytes.length) :
    ∃ front rest, take? count bytes = some (front, rest) :=
  ⟨_, _, by rw [take?_eq, if_pos enough]⟩

@[simp] theorem encodeAll_nil : Field.encodeAll [] = [] := rfl

@[simp] theorem encodeAll_cons (field : Field) (fields : List Field) :
    Field.encodeAll (field :: fields) = field.encode ++ Field.encodeAll fields := rfl

theorem encodeAll_append (fields more : List Field) :
    Field.encodeAll (fields ++ more) = Field.encodeAll fields ++ Field.encodeAll more := by
  induction fields with
  | nil => rfl
  | cons field fields ih => simp [ih]

/-- The number of bytes of a field. -/
def Kind.size : Kind → Nat
  | .int32 => 4
  | .int64 => 8
  | .word => 8

@[simp] theorem length_encode (field : Field) : field.encode.length = field.kind.size := by
  cases field <;> exact length_bigEndian _ _

theorem length_encodeAll_words (words : List UInt64) :
    (Field.encodeAll (words.map .word)).length = 8 * words.length := by
  induction words with
  | nil => rfl
  | cons word words ih =>
    simp only [List.map_cons, encodeAll_cons, List.length_append, length_encode, ih, Field.kind,
      Kind.size, List.length_cons]
    omega

/-! ## Reading what was written -/

theorem readInt32_encode (value : Int32) (rest : List UInt8) :
    readInt32 ((Field.int32 value).encode ++ rest) = some (value, rest) := by
  have small : value.toUInt32.toNat < 256 ^ 4 := value.toUInt32.toNat_lt
  unfold readInt32 Field.encode
  rw [take?_append (length_bigEndian _ _), Option.map_some]
  dsimp only
  rw [ofBigEndian_bigEndian, Nat.mod_eq_of_lt small, UInt32.ofNat_toNat, Int32.toInt32_toUInt32]

theorem readInt64_encode (value : Int64) (rest : List UInt8) :
    readInt64 ((Field.int64 value).encode ++ rest) = some (value, rest) := by
  have small : value.toUInt64.toNat < 256 ^ 8 := value.toUInt64.toNat_lt
  unfold readInt64 Field.encode
  rw [take?_append (length_bigEndian _ _), Option.map_some]
  dsimp only
  rw [ofBigEndian_bigEndian, Nat.mod_eq_of_lt small, UInt64.ofNat_toNat, Int64.toInt64_toUInt64]

theorem readWord_encode (value : UInt64) (rest : List UInt8) :
    readWord ((Field.word value).encode ++ rest) = some (value, rest) := by
  have small : value.toNat < 256 ^ 8 := value.toNat_lt
  unfold readWord Field.encode
  rw [take?_append (length_bigEndian _ _), Option.map_some]
  dsimp only
  rw [ofBigEndian_bigEndian, Nat.mod_eq_of_lt small, UInt64.ofNat_toNat]

theorem readWords_encodeAll (words : List UInt64) (rest : List UInt8) :
    readWords words.length (Field.encodeAll (words.map .word) ++ rest) = some (words, rest) := by
  induction words with
  | nil => rfl
  | cons word words ih =>
    rw [List.map_cons, encodeAll_cons, List.append_assoc, List.length_cons, readWords,
      readWord_encode]
    show (readWords words.length _ >>= _) = _
    rw [ih]
    rfl

/-! ## Writing what was read -/

/-- The bytes that were split off are those of the number that they make. -/
theorem eq_bigEndian_of_take? {size : Nat} {bytes front rest : List UInt8}
    (h : take? size bytes = some (front, rest)) :
    ofBigEndian front < 256 ^ size ∧ bytes = bigEndian size (ofBigEndian front) ++ rest := by
  obtain ⟨rfl, rfl⟩ := take?_eq_some_iff.mp h
  exact ⟨ofBigEndian_lt front, by rw [bigEndian_ofBigEndian]⟩

theorem encode_int32 {n : Nat} (small : n < 256 ^ 4) :
    (Field.int32 (UInt32.ofNat n).toInt32).encode = bigEndian 4 n := by
  rw [Field.encode, UInt32.toUInt32_toInt32, UInt32.toNat_ofNat_of_lt' small]

theorem encode_int64 {n : Nat} (small : n < 256 ^ 8) :
    (Field.int64 (UInt64.ofNat n).toInt64).encode = bigEndian 8 n := by
  rw [Field.encode, UInt64.toUInt64_toInt64, UInt64.toNat_ofNat_of_lt' small]

theorem encode_word {n : Nat} (small : n < 256 ^ 8) :
    (Field.word (UInt64.ofNat n)).encode = bigEndian 8 n := by
  rw [Field.encode, UInt64.toNat_ofNat_of_lt' small]

theorem eq_encode_of_readInt32 {bytes rest : List UInt8} {value : Int32}
    (h : readInt32 bytes = some (value, rest)) : bytes = (Field.int32 value).encode ++ rest := by
  obtain ⟨⟨front, rest⟩, taken, read⟩ := Option.map_eq_some_iff.mp h
  obtain ⟨small, rfl⟩ := eq_bigEndian_of_take? taken
  cases read
  rw [encode_int32 small]

theorem eq_encode_of_readInt64 {bytes rest : List UInt8} {value : Int64}
    (h : readInt64 bytes = some (value, rest)) : bytes = (Field.int64 value).encode ++ rest := by
  obtain ⟨⟨front, rest⟩, taken, read⟩ := Option.map_eq_some_iff.mp h
  obtain ⟨small, rfl⟩ := eq_bigEndian_of_take? taken
  cases read
  rw [encode_int64 small]

theorem eq_encode_of_readWord {bytes rest : List UInt8} {value : UInt64}
    (h : readWord bytes = some (value, rest)) : bytes = (Field.word value).encode ++ rest := by
  obtain ⟨⟨front, rest⟩, taken, read⟩ := Option.map_eq_some_iff.mp h
  obtain ⟨small, rfl⟩ := eq_bigEndian_of_take? taken
  cases read
  rw [encode_word small]

theorem eq_encodeAll_of_readWords : ∀ {count : Nat} {bytes rest : List UInt8} {words : List UInt64},
    readWords count bytes = some (words, rest) →
      words.length = count ∧ bytes = Field.encodeAll (words.map .word) ++ rest := by
  intro count
  induction count with
  | zero =>
    intro bytes rest words h
    cases h
    exact ⟨rfl, rfl⟩
  | succ count ih =>
    intro bytes rest words h
    obtain ⟨⟨word, after⟩, first, h⟩ := Option.bind_eq_some_iff.mp h
    obtain ⟨⟨more, last⟩, others, h⟩ := Option.bind_eq_some_iff.mp h
    cases h
    obtain ⟨size, rfl⟩ := ih others
    obtain rfl := eq_encode_of_readWord first
    exact ⟨congrArg (· + 1) size, by simp⟩

/-! ## Enough bytes -/

/-- The first bytes are a number, whatever they are. -/
theorem exists_bigEndian {bytes : List UInt8} {size left : Nat}
    (enough : size + left ≤ bytes.length) :
    ∃ n rest, n < 256 ^ size ∧ bytes = bigEndian size n ++ rest ∧ left ≤ rest.length := by
  obtain ⟨front, rest, taken⟩ := exists_take? (Nat.le_trans (Nat.le_add_right size left) enough)
  obtain ⟨small, rfl⟩ := eq_bigEndian_of_take? taken
  rw [List.length_append, length_bigEndian] at enough
  exact ⟨_, rest, small, rfl, Nat.le_of_add_le_add_left enough⟩

theorem exists_int32 {bytes : List UInt8} {left : Nat} (enough : 4 + left ≤ bytes.length) :
    ∃ value rest, bytes = (Field.int32 value).encode ++ rest ∧ left ≤ rest.length := by
  obtain ⟨n, rest, small, rfl, more⟩ := exists_bigEndian enough
  exact ⟨_, rest, by rw [encode_int32 small], more⟩

theorem exists_int64 {bytes : List UInt8} {left : Nat} (enough : 8 + left ≤ bytes.length) :
    ∃ value rest, bytes = (Field.int64 value).encode ++ rest ∧ left ≤ rest.length := by
  obtain ⟨n, rest, small, rfl, more⟩ := exists_bigEndian enough
  exact ⟨_, rest, by rw [encode_int64 small], more⟩

theorem exists_word {bytes : List UInt8} {left : Nat} (enough : 8 + left ≤ bytes.length) :
    ∃ value rest, bytes = (Field.word value).encode ++ rest ∧ left ≤ rest.length := by
  obtain ⟨n, rest, small, rfl, more⟩ := exists_bigEndian enough
  exact ⟨_, rest, by rw [encode_word small], more⟩

/-- Words are read exactly if there are enough bytes for them. -/
theorem exists_readWords_iff : ∀ {count : Nat} {bytes : List UInt8},
    (∃ words rest, readWords count bytes = some (words, rest)) ↔ 8 * count ≤ bytes.length := by
  intro count
  induction count with
  | zero => exact fun {_} => ⟨fun _ => Nat.zero_le _, fun _ => ⟨[], _, rfl⟩⟩
  | succ count ih =>
    intro bytes
    constructor
    · rintro ⟨words, rest, read⟩
      obtain ⟨size, rfl⟩ := eq_encodeAll_of_readWords read
      rw [List.length_append, length_encodeAll_words, size]
      exact Nat.le_add_right _ _
    · intro enough
      obtain ⟨word, after, rfl, left⟩ :=
        exists_word (show 8 + 8 * count ≤ bytes.length by omega)
      obtain ⟨words, rest, others⟩ := ih.mpr left
      refine ⟨word :: words, rest, ?_⟩
      rw [readWords, readWord_encode]
      show (readWords count after >>= _) = _
      rw [others]
      rfl

/-! ## Numbers at places -/

/-- The number in `size` bytes from `start` on, most significant byte first. -/
def unsignedAt (bytes : List UInt8) (start size : Nat) : Nat :=
  ofBigEndian ((bytes.drop start).take size)

/-- The two's complement number in `size` bytes from `start` on. -/
def signedAt (bytes : List UInt8) (start size : Nat) : Int :=
  (unsignedAt bytes start size : Int).bmod (256 ^ size : Nat)

theorem unsignedAt_append {size n : Nat} (small : n < 256 ^ size) (before after : List UInt8) :
    unsignedAt (before ++ (bigEndian size n ++ after)) before.length size = n := by
  rw [unsignedAt, List.drop_left, List.take_left' (length_bigEndian size n), ofBigEndian_bigEndian,
    Nat.mod_eq_of_lt small]

theorem signedAt_int32 (before : List UInt8) (value : Int32) (after : List UInt8) :
    signedAt (before ++ ((Field.int32 value).encode ++ after)) before.length 4 = value.toInt := by
  rw [signedAt, Field.encode, unsignedAt_append value.toUInt32.toNat_lt]
  exact (BitVec.toInt_eq_toNat_bmod value.toBitVec).symm

theorem signedAt_int64 (before : List UInt8) (value : Int64) (after : List UInt8) :
    signedAt (before ++ ((Field.int64 value).encode ++ after)) before.length 8 = value.toInt := by
  rw [signedAt, Field.encode, unsignedAt_append value.toUInt64.toNat_lt]
  exact (BitVec.toInt_eq_toNat_bmod value.toBitVec).symm

/-- Words that were written one after the other are found there. -/
theorem unsignedAt_words (before : List UInt8) (words : List UInt64) (after : List UInt8) {i : Nat}
    (inside : i < words.length) :
    unsignedAt (before ++ (Field.encodeAll (words.map .word) ++ after)) (before.length + 8 * i) 8 =
      words[i].toNat := by
  have pieces : Field.encodeAll (words.map .word) = Field.encodeAll ((words.take i).map .word) ++
      ((Field.word words[i]).encode ++ Field.encodeAll ((words.drop (i + 1)).map .word)) := by
    calc Field.encodeAll (words.map .word) =
          Field.encodeAll ((words.take i ++ words[i] :: words.drop (i + 1)).map .word) := by
          rw [← List.drop_eq_getElem_cons inside, List.take_append_drop]
      _ = _ := by rw [List.map_append, encodeAll_append, List.map_cons, encodeAll_cons]
  have start : (before ++ Field.encodeAll ((words.take i).map .word)).length =
      before.length + 8 * i := by
    rw [List.length_append, length_encodeAll_words, List.length_take_of_le (Nat.le_of_lt inside)]
  rw [pieces, List.append_assoc, List.append_assoc, ← List.append_assoc before, ← start]
  exact unsignedAt_append words[i].toNat_lt _ _

end Cuckoo.Bytes

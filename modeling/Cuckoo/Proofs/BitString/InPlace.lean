import Cuckoo.Proofs.BitString.Bounded
import Cuckoo.Proofs.BitString.Overwrite

/-!
# Spans of words in memory

An overwrite is a short program on words in memory. It takes out one word or two and puts as many
back, and a word that is not there stops it where it is: **what has been put back by then stays**.
That a refused overwrite changes nothing is therefore not a matter of course. It holds because the
span is read first, and reading asks for every word that is written later (`InPlace.write_eq`).

The main statement, `exact_on_spans`, says what reading and overwriting do in terms of the single bits
of the string, on every array of words and for every span.
-/

set_option autoImplicit false

namespace Cuckoo.BitString

open Runs

/-! ## Programs on words in memory -/

/-- A program on words in memory. Where it is refused, the words stay as they are by then. -/
abbrev InPlace (α : Type) : Type := EStateM Refusal (Array UInt64) α

namespace InPlace

def load (i : Nat) : InPlace UInt64 := fun words =>
  if i < words.size then .ok (words.getD i 0) words else .error .spanOutside words

def store (i : Nat) (word : UInt64) : InPlace Unit := fun words =>
  if i < words.size then .ok () (words.setIfInBounds i word) else .error .spanOutside words

/-- Replaces the bits of a word under a mask by those of a value. -/
def overwrite (i : Nat) (mask value : UInt64) : InPlace Unit := do
  let word ← load i
  store i ((word &&& ~~~mask) ||| value)

def read (offset length : Nat) : InPlace UInt64 := do
  if length < 1 ∨ 64 < length then throw .spanLength
  let shift := offset % 64
  let low := (← load (offset / 64)) >>> shift.toUInt64
  if 64 < shift + length then
    let high := (← load (offset / 64 + 1)) <<< (64 - shift).toUInt64
    pure ((low ||| high) &&& lowMask length)
  else pure (low &&& lowMask length)

def write (value : UInt64) (offset length : Nat) : InPlace UInt64 := do
  let old ← read offset length
  let mask := lowMask length
  let shift := offset % 64
  overwrite (offset / 64) (mask <<< shift.toUInt64) ((value &&& mask) <<< shift.toUInt64)
  if 64 < shift + length then
    let spill := (64 - shift).toUInt64
    overwrite (offset / 64 + 1) (mask >>> spill) ((value &&& mask) >>> spill)
  pure old

/-! ## Runs -/

section

variable {α β : Type} {words words' : Array UInt64}

theorem bind_ok {p : InPlace α} {a : α} (run : p words = .ok a words') (f : α → InPlace β) :
    (p >>= f) words = f a words' := by
  simp only [bind, EStateM.bind, run]

theorem bind_error {p : InPlace α} {refusal : Refusal} (run : p words = .error refusal words')
    (f : α → InPlace β) : (p >>= f) words = .error refusal words' := by
  simp only [bind, EStateM.bind, run]

theorem load_eq {i : Nat} (inside : i < words.size) :
    load i words = .ok (words.getD i 0) words := if_pos inside

theorem load_eq_error {i : Nat} (outside : words.size ≤ i) :
    load i words = .error .spanOutside words := if_neg (Nat.not_lt.mpr outside)

theorem overwrite_eq {i : Nat} (inside : i < words.size) (mask value : UInt64) :
    overwrite i mask value words =
      .ok () (words.modify i fun word => (word &&& ~~~mask) ||| value) := by
  unfold overwrite
  rw [bind_ok (load_eq inside)]
  unfold store
  rw [if_pos inside]
  congr 1
  apply Array.ext (by simp)
  intro k _ _
  rw [Array.getElem_setIfInBounds, Array.getElem_modify]
  by_cases here : i = k
  · subst here
    simp [inside]
  · rw [if_neg here, if_neg here]

end

/-- Reading in memory answers as reading does and changes no word. -/
theorem read_eq (words : Array UInt64) (offset length : Nat) :
    read offset length words =
      match BitString.read words offset length with
      | .ok value => .ok value words
      | .error refusal => .error refusal words := by
  unfold read BitString.read checkSpan
  by_cases wrong : length < 1 ∨ 64 < length
  · rw [if_pos wrong, if_pos wrong]
    rfl
  rw [if_neg wrong, if_neg wrong, last_word_eq (by omega) (by omega)]
  dsimp only
  by_cases straddles : 64 < offset % 64 + length
  · rw [if_pos straddles]
    by_cases inside : offset / 64 + 1 < words.size
    · rw [if_neg (Nat.not_le.mpr inside), bind_ok (load_eq (by omega)), if_pos straddles,
        bind_ok (load_eq inside)]
      simp only [peek, if_pos straddles]
      rfl
    · have outside := Nat.not_lt.mp inside
      rw [if_pos outside]
      by_cases first : offset / 64 < words.size
      · rw [bind_ok (load_eq first), if_pos straddles, bind_error (load_eq_error outside)]
        rfl
      · rw [bind_error (load_eq_error (Nat.not_lt.mp first))]
        rfl
  · rw [if_neg straddles]
    by_cases inside : offset / 64 < words.size
    · rw [if_neg (Nat.not_le.mpr inside), bind_ok (load_eq inside), if_neg straddles]
      simp only [peek, if_neg straddles, UInt64.or_zero]
      rfl
    · have outside := Nat.not_lt.mp inside
      rw [if_pos outside, bind_error (load_eq_error outside)]
      rfl

/-- **Overwriting in memory does what overwriting does, and nothing where it is refused.** -/
theorem write_eq (value : UInt64) (words : Array UInt64) (offset length : Nat) :
    write value offset length words =
      match BitString.write value words offset length with
      | .ok (old, words') => .ok old words'
      | .error refusal => .error refusal words := by
  have first := read_eq words offset length
  unfold write BitString.write
  unfold BitString.read at first
  cases checked : checkSpan words offset length with
  | error refusal =>
    rw [checked] at first
    exact bind_error first _
  | ok _ =>
    -- the span lies inside, so no word of it can be missing
    obtain ⟨pos, le, inside⟩ := checkSpan_eq_ok_iff.mp checked
    have here : offset / 64 < words.size := by omega
    rw [checked] at first
    rw [bind_ok first]
    dsimp only [poke, ok_bind, pure_eq]
    rw [bind_ok (overwrite_eq here _ _)]
    by_cases straddles : 64 < offset % 64 + length
    · have there : offset / 64 + 1 < words.size := by omega
      rw [if_pos straddles, if_pos straddles,
        bind_ok (overwrite_eq (by rwa [Array.size_modify]) _ _)]
      rfl
    · rw [if_neg straddles, if_neg straddles]
      rfl

end InPlace

/-! ## Reading and overwriting, bit by bit -/

/-- The words after a span of them was overwritten: the bits of the span are those of the value, and
all others are the same. So the span reads as what is left of the value, a span apart from it reads as
before, and writing back what the span held restores the words. -/
structure Overwrites (words : Array UInt64) (offset length : Nat) (value old : UInt64)
    (words' : Array UInt64) : Prop where
  size_eq : words'.size = words.size
  within : ∀ j < length, bit words' (offset + j) = value.toNat.testBit j
  without : ∀ j, ¬ (offset ≤ j ∧ j < offset + length) → bit words' j = bit words j
  reads : ∃ read_back, read words' offset length = .ok read_back ∧
    read_back.toNat = value.toNat % 2 ^ length
  apart : ∀ offset' length', offset' + length' ≤ offset ∨ offset + length ≤ offset' →
    read words' offset' length' = read words offset' length'
  undone : ∃ again, write old words' offset length = .ok (again, words)

/-- A span is refused by reading and overwriting alike, or taken by both. -/
theorem span_cases (value : UInt64) (words : Array UInt64) (offset length : Nat) :
    ((¬ (1 ≤ length ∧ length ≤ 64) ∨ 64 * words.size < offset + length) ∧ ∃ refusal,
      read words offset length = .error refusal ∧
      write value words offset length = .error refusal) ∨
    (1 ≤ length ∧ length ≤ 64 ∧ offset + length ≤ 64 * words.size) ∧
      read words offset length = .ok (peek words offset length) ∧
      write value words offset length =
        .ok (peek words offset length, poke words offset length value) := by
  have taken := @checkSpan_eq_ok_iff words offset length
  unfold read write
  cases checked : checkSpan words offset length with
  | ok _ => exact Or.inr ⟨taken.mp checked, rfl, rfl⟩
  | error refusal =>
    have refused : ¬ (1 ≤ length ∧ length ≤ 64 ∧ offset + length ≤ 64 * words.size) := by
      rw [← taken, checked]
      nofun
    exact Or.inl ⟨by omega, refusal, rfl, rfl⟩

/-- A refusal depends on the number of words, and not on what is in them. -/
theorem checkSpan_poke (words : Array UInt64) (offset length : Nat) (value : UInt64)
    (offset' length' : Nat) : checkSpan (poke words offset length value) offset' length' =
      checkSpan words offset' length' := by
  unfold checkSpan
  rw [size_poke]

theorem overwrites_poke {words : Array UInt64} {offset length : Nat} (pos : 1 ≤ length)
    (le : length ≤ 64) (inside : offset + length ≤ 64 * words.size) (value : UInt64) :
    Overwrites words offset length value (peek words offset length)
      (poke words offset length value) where
  size_eq := size_poke ..
  within := by
    intro j low
    rw [bit_poke words pos le inside, if_pos (by omega), Nat.add_sub_cancel_left]
  without := by
    intro j outside
    rw [bit_poke words pos le inside, if_neg outside]
  reads := by
    refine ⟨_, ?_, toNat_and_lowMask pos le value⟩
    unfold read
    rw [checkSpan_poke, checkSpan_eq_ok_iff.mpr ⟨pos, le, inside⟩, peek_poke pos le inside]
    rfl
  apart := by
    intro offset' length' disjoint
    unfold read
    rw [checkSpan_poke]
    cases checked : checkSpan words offset' length' with
    | error refusal => rfl
    | ok _ =>
      obtain ⟨pos', le', -⟩ := checkSpan_eq_ok_iff.mp checked
      rw [ok_bind, ok_bind, peek_poke_of_disjoint pos le inside value pos' le' disjoint]
  undone := by
    refine ⟨peek (poke words offset length value) offset length, ?_⟩
    unfold write
    rw [checkSpan_poke, checkSpan_eq_ok_iff.mpr ⟨pos, le, inside⟩, poke_poke_peek pos le inside]
    rfl

/-- **Reading and overwriting are exact on the spans of the flat bit string.** They refuse a span of a
wrong length, and one that ends past the last word, and no other; and a refused overwrite has changed
no word. Else the number read is the one formed by the bits of the span, overwriting answers with the
same number, and changes the bits of the span and no other. -/
theorem exact_on_spans (words : Array UInt64) (offset length : Nat) (value : UInt64) :
    ((∃ refusal, read words offset length = .error refusal) ↔
      ¬ (1 ≤ length ∧ length ≤ 64) ∨ 64 * words.size < offset + length) ∧
    ((∃ refusal, write value words offset length = .error refusal) ↔
      ¬ (1 ≤ length ∧ length ≤ 64) ∨ 64 * words.size < offset + length) ∧
    (∀ refusal, write value words offset length = .error refusal →
      (InPlace.write value offset length).run words = .error refusal words) ∧
    (∀ number, read words offset length = .ok number →
      number.toNat = spanValue words offset length) ∧
    ∀ old words', write value words offset length = .ok (old, words') →
      (InPlace.write value offset length).run words = .ok old words' ∧
      read words offset length = .ok old ∧ Overwrites words offset length value old words' := by
  have inPlace := InPlace.write_eq value words offset length
  rcases span_cases value words offset length with
    ⟨outside, refusal, reads, writes⟩ | ⟨⟨pos, le, inside⟩, reads, writes⟩
  · rw [reads, writes]
    rw [writes] at inPlace
    refine ⟨?_, ?_, ?_, nofun, nofun⟩
    · exact ⟨fun _ => outside, fun _ => ⟨refusal, rfl⟩⟩
    · exact ⟨fun _ => outside, fun _ => ⟨refusal, rfl⟩⟩
    · rintro _ ⟨⟩
      exact inPlace
  · rw [reads, writes]
    rw [writes] at inPlace
    refine ⟨?_, ?_, nofun, ?_, ?_⟩
    · exact ⟨nofun, fun outside => by omega⟩
    · exact ⟨nofun, fun outside => by omega⟩
    · rintro _ ⟨⟩
      exact toNat_peek words offset pos le
    · rintro _ _ ⟨⟩
      exact ⟨inPlace, rfl, overwrites_poke pos le inside value⟩

/-- Eight bits that lie in two words give way to the low bits of a wider number, and a span that ends
one bit past the last word is refused. -/
theorem straddling_span_overwritten :
    (∃ words', write 0x1a3 #[0xfafafafafafafafa, 5] 60 8 = .ok (0x5f, words') ∧
      spanValue #[0xfafafafafafafafa, 5] 60 8 = 0x5f ∧
      Overwrites #[0xfafafafafafafafa, 5] 60 8 0x1a3 0x5f words') ∧
    write 0x1a3 #[0xfafafafafafafafa, 5] 121 8 = .error .spanOutside ∧
    (InPlace.write 0x1a3 121 8).run #[0xfafafafafafafafa, 5] =
      .error .spanOutside #[0xfafafafafafafafa, 5] := by
  obtain ⟨-, -, -, reads, writes⟩ := exact_on_spans #[0xfafafafafafafafa, 5] 60 8 0x1a3
  obtain ⟨-, -, refused, -⟩ := exact_on_spans #[0xfafafafafafafafa, 5] 121 8 0x1a3
  have taken : write 0x1a3 #[0xfafafafafafafafa, 5] 60 8 =
      .ok (0x5f, #[0x3afafafafafafafa, 0xa]) := rfl
  obtain ⟨-, same, overwrites⟩ := writes _ _ taken
  exact ⟨⟨_, taken, (reads _ same).symm, overwrites⟩, rfl, refused _ rfl⟩

end Cuckoo.BitString

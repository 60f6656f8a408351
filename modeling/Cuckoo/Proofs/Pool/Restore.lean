import Cuckoo.Proofs.Filter.Malformed
import Cuckoo.Proofs.Filter.Readback
import Cuckoo.Proofs.Pool.Sound

/-!
# Filters of a pool, written and read back

Whatever commands a pool has carried out, each of its filters is sound, and so its bytes are read
back, if the header has room for its slots and its capacity. The number of fingerprints asks for no
room of its own: it is the number of cells in use, which the capacity bounds.

The bytes that a pool is given to read may be anything. Those that hold a filter are read, and the
others are reported.
-/

set_option autoImplicit false

namespace Cuckoo

open Hash Runs

/-- What reading its bytes makes of a filter. The table is the same to the bit, so nothing that is
asked of the filter and nothing that is deleted from it tells the two apart. The budget and the
generator are the usual ones. -/
structure Filter.Restores (f g : Filter) : Prop where
  scheme : g.scheme = f.scheme
  seed : g.seed = f.seed
  shape : g.table.shape = f.table.shape
  count : g.table.count = f.table.count
  words : g.table.words = f.table.words
  beq : (g == f) = true
  contains : ∀ x : Item, ∃ found, f.contains x = .ok found ∧ g.contains x = .ok found
  erase : ∀ xs : List Item, ∃ flags f' g', f.eraseEach xs = .ok (flags, f') ∧
    g.eraseEach xs = .ok (flags, g') ∧ f'.Twin g'
  encode : g.encode = f.encode
  budget : g.budget = 500
  picker : g.nest.picker = Draw.Keystream.ofSeed 1

theorem Filter.Sound.restores_asRead {f : Filter} (s : f.Sound) : f.Restores (f.asRead f.seed) where
  scheme := rfl
  seed := rfl
  shape := rfl
  count := rfl
  words := rfl
  beq := f.twin_asRead.beq
  contains := by
    intro x
    obtain ⟨found, run⟩ := s.exists_contains x
    exact ⟨found, run, (f.twin_asRead.contains x).trans run⟩
  erase := by
    intro xs
    obtain ⟨flags, f', run, -⟩ := Filter.Sound.exists_eraseEach xs s
    obtain ⟨g', run', twin⟩ := Filter.Twin.eraseEach xs f.twin_asRead run
    exact ⟨flags, f', g', run, run', twin⟩
  encode := f.twin_asRead.encode
  budget := rfl
  picker := rfl

theorem Filter.Sound.headerFits {f : Filter} (s : f.Sound) (slots : f.table.shape.slots ≤ 2 ^ 31 - 1)
    (capacity : f.table.capacity ≤ 2 ^ 63 - 1) : f.HeaderFits := by
  have count : f.table.count ≤ f.table.capacity := s.wellFormed.count_le_capacity
  exact ⟨by omega, by omega⟩

namespace Pool

/-- **Decoding undoes encoding**, for every filter of a pool whose slot count and capacity fit the
signed fields of the header, whatever has happened to it. -/
theorem decoding_undoes_encoding {commands : List Command} {replies : List Reply} {p : Pool}
    {name : String} {f : Filter} (run : Pool.empty.run commands = .ok (replies, p))
    (found : p.get? name = some f) (slots : f.table.shape.slots ≤ 2 ^ 31 - 1)
    (capacity : f.table.capacity ≤ 2 ^ 63 - 1) :
    f.encode.length = 36 + 8 * f.table.words.size ∧
      ∃ g, Filter.decode f.encode f.seed = .ok g ∧ f.Restores g := by
  have s : f.Sound := sound_of_run run found
  refine ⟨f.length_encode, f.asRead f.seed, ?_, s.restores_asRead⟩
  exact Filter.decode_encode_of_fits s (s.headerFits slots capacity) f.seed

/-- A filter of budget 2 is read back with budget 500, and finds what was added to the first one. -/
theorem restored_from_use : ∃ replies p f g,
    Pool.empty.run [.build "a" ⟨.dimensions ⟨4, 2, 8⟩, .xor, 7, 5, 2⟩, .insert "a" (.int 4 1),
      .insert "a" (.int 4 2), .erase "a" (.int 4 1)] = .ok (replies, p) ∧
    p.get? "a" = some f ∧ f.budget = 2 ∧ Filter.decode f.encode f.seed = .ok g ∧ g.budget = 500 ∧
    g.contains (.int 4 2) = .ok true := by
  obtain ⟨replies, p, f, run, found, small, budget, held⟩ : ∃ replies p f,
      Pool.empty.run [.build "a" ⟨.dimensions ⟨4, 2, 8⟩, .xor, 7, 5, 2⟩, .insert "a" (.int 4 1),
        .insert "a" (.int 4 2), .erase "a" (.int 4 1)] = .ok (replies, p) ∧
      p.get? "a" = some f ∧ f.table.shape = ⟨4, 2, 8⟩ ∧ f.budget = 2 ∧
      f.contains (.int 4 2) = .ok true := ⟨_, _, _, rfl, rfl, rfl, rfl, rfl⟩
  have capacity : f.table.capacity ≤ 2 ^ 63 - 1 := by
    rw [Table.capacity, small]
    decide
  obtain ⟨-, g, read, restores⟩ :=
    decoding_undoes_encoding run found (by rw [small]; decide) capacity
  obtain ⟨answer, before, after⟩ := restores.contains (.int 4 2)
  cases before.symm.trans held
  exact ⟨replies, p, f, g, run, found, budget, read, restores.budget, after⟩

/-- **Exactly the byte strings of the format are read.** All others are reported as malformed data,
and nothing overflows on the way. What is read is written as the bytes that it was read from, with the
bits behind its last slot, and without what follows its last word. No filter of a pool is read from a
part of its bytes. -/
theorem reads_exactly_the_format :
    (∀ (bytes : List UInt8) (seed : UInt64),
      ((∃ g, Filter.decode bytes seed = .ok g) ↔ Filter.Formatted bytes) ∧
      (¬ Filter.Formatted bytes → ∃ cause, Filter.decode bytes seed = .error cause ∧
        cause.report.kind = .invalidData) ∧
      (Filter.decode? bytes seed).run = some (Filter.decode bytes seed) ∧
      ∀ g, Filter.decode bytes seed = .ok g →
        g.encode = bytes.take (36 + 8 * (Filter.Numbers.ofBytes bytes).words.toNat)) ∧
    ∀ (commands : List Command) (replies : List Reply) (p : Pool) (name : String) (f : Filter),
      Pool.empty.run commands = .ok (replies, p) → p.get? name = some f →
      ∀ k < f.encode.length, ∀ seed, ∃ cause,
        Filter.decode (f.encode.take k) seed = .error cause ∧ cause.report.kind = .invalidData := by
  constructor
  · intro bytes seed
    refine ⟨Filter.exists_decode_iff, ?_, ?_, fun g run => Filter.encode_eq_take_of_decode run⟩
    · intro other
      cases run : Filter.decode bytes seed with
      | ok g => exact absurd (Filter.formatted_of_decode run) other
      | error cause => exact ⟨cause, rfl, Filter.failsInData_decode bytes seed cause run⟩
    · rw [Filter.decode?_eq]
      rfl
  · intro commands replies p name f run found k short seed
    obtain ⟨cause, failed⟩ := Filter.exists_error_of_prefix (sound_of_run run found) short seed
    exact ⟨cause, failed, Filter.failsInData_decode _ seed cause failed⟩

/-- Two buckets of two slots of five bits, with the fingerprint 3 in the first slot, a bit that is set
behind the last slot, and a byte too many. -/
def padded : List UInt8 :=
  [0, 0, 0, 0, 0, 0, 0, 0, 0, 0, 0, 2, 0, 0, 0, 2, 0, 0, 0, 5, 0, 0, 0, 0, 0, 0, 0, 1,
    0, 0, 0, 0, 0, 0, 0, 1, 0x80, 0, 0, 0, 0, 0, 0, 3, 0xff]

theorem padded_read : ∃ g, Filter.decode padded 7 = .ok g ∧ g.table.entries = [(0, 3)] ∧
    g.encode = padded.take 44 ∧ Filter.Formatted padded ∧
    (∃ cause, Filter.decode [] 7 = .error cause ∧ cause.report.kind = .invalidData) ∧
    ∃ replies p f cause, Pool.empty.run [.decode "a" padded none] = .ok (replies, p) ∧
      p.get? "a" = some f ∧ Filter.decode (f.encode.take 43) 7 = .error cause ∧
      cause.report.kind = .invalidData := by
  obtain ⟨format, parts⟩ := reads_exactly_the_format
  obtain ⟨g, run, entries, width⟩ : ∃ g, Filter.decode padded 7 = .ok g ∧
      g.table.entries = [(0, 3)] ∧ (Filter.Numbers.ofBytes padded).words.toNat = 1 :=
    ⟨_, rfl, rfl, rfl⟩
  obtain ⟨formatted, -, -, back⟩ := format padded 7
  obtain ⟨-, missing, -⟩ := format [] 7
  obtain ⟨replies, p, f, loaded, found, length⟩ : ∃ replies p f,
      Pool.empty.run [.decode "a" padded none] = .ok (replies, p) ∧ p.get? "a" = some f ∧
      43 < f.encode.length := ⟨_, _, _, rfl, rfl, by decide⟩
  obtain ⟨cause, failed, kind⟩ := parts _ replies p "a" f loaded found 43 length 7
  refine ⟨g, run, entries, ?_, formatted.mp ⟨g, run⟩, missing fun empty => ?_, ?_⟩
  · rw [back g run, width]
  · cases Nat.not_succ_le_zero 35 empty.header
  · exact ⟨replies, p, f, cause, loaded, found, failed, kind⟩

end Pool

end Cuckoo

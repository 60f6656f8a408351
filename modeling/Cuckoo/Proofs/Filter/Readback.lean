import Cuckoo.Filter.Blueprint
import Cuckoo.Proofs.Filter.Canonical

/-!
# What is left of a filter when it is read back

The bytes of a filter do not say how its victims are picked and how many evictions it may make. So what
is read back is a `Twin` of the filter, which answers and loses objects like the filter itself, and may
differ only where room has to be made.

The builder takes every table that can be addressed, and the header keeps 31 bits of the number of
slots. So **not every filter that can be built can be read back**: exactly those with shorter buckets
can.
-/

set_option autoImplicit false

namespace Cuckoo

open Bytes Hash Runs

/-- Deleting does not ask how victims are picked: over the same table it comes to the same. -/
theorem Nest.erase_of_table_eq {σ : Type} {r r' : Rules σ} {n n' m : Nest σ} {key : Key}
    {found : Bool} (placement : r'.placement = r.placement) (table : n'.table = n.table)
    (run : n.erase r key = .ok (found, m)) :
    n'.erase r' key = .ok (found, { n' with table := m.table }) := by
  obtain ⟨rule, pick, budget⟩ := r
  obtain ⟨t, picker⟩ := n
  cases placement
  cases table
  unfold erase at run ⊢
  obtain ⟨⟨fingerprint, home⟩, located, run⟩ := bind_eq_ok_iff.mp run
  refine bind_eq_ok_iff.mpr ⟨(fingerprint, home), located, ?_⟩
  obtain ⟨first, stored, run⟩ := bind_eq_ok_iff.mp run
  refine bind_eq_ok_iff.mpr ⟨first, stored, ?_⟩
  cases first with
  | some t =>
    cases run
    rfl
  | none =>
    obtain ⟨second, stored, run⟩ := bind_eq_ok_iff.mp run
    refine bind_eq_ok_iff.mpr ⟨second, stored, ?_⟩
    cases second with
    | some t =>
      cases run
      rfl
    | none =>
      cases run
      rfl

namespace Filter

/-- Two filters that differ at most in their budgets and their generators. -/
structure Twin (f g : Filter) : Prop where
  scheme : g.scheme = f.scheme
  seed : g.seed = f.seed
  table : g.table = f.table

theorem twin_asRead (f : Filter) : f.Twin (f.asRead f.seed) := ⟨rfl, rfl, rfl⟩

section

variable {f g : Filter} (t : f.Twin g)
include t

theorem Twin.beq : (g == f) = true := by
  show (g.seed == f.seed && g.scheme == f.scheme && g.table.sameContents f.table) = true
  rw [t.seed, t.scheme, t.table, Table.sameContents, Table.compatible]
  simp

theorem Twin.encode : g.encode = f.encode := by
  unfold Filter.encode Header.ofFilter
  rw [t.scheme, t.table]

theorem Twin.contains (x : Item) : g.contains x = f.contains x := by
  obtain ⟨scheme, seed, budget, nest, picker⟩ := g
  obtain ⟨rfl, rfl, rfl⟩ := t
  rfl

theorem Twin.erase {x : Item} {found : Bool} {f' : Filter} (run : f.erase x = .ok (found, f')) :
    ∃ g', g.erase x = .ok (found, g') ∧ f'.Twin g' := by
  obtain ⟨⟨_, nest⟩, erased, answer⟩ := bind_eq_ok_iff.mp run
  cases answer
  have placement : g.rules.placement = f.rules.placement := congrArg Scheme.placement t.scheme
  have same := Nest.erase_of_table_eq placement t.table erased
  refine ⟨{ g with nest := { g.nest with table := nest.table } }, ?_, t.scheme, t.seed, rfl⟩
  unfold Filter.erase
  rw [t.seed, same]
  rfl

end

theorem Twin.eraseEach : ∀ (xs : List Item) {f g f' : Filter} {flags : List Bool}, f.Twin g →
    f.eraseEach xs = .ok (flags, f') → ∃ g', g.eraseEach xs = .ok (flags, g') ∧ f'.Twin g' := by
  intro xs
  induction xs with
  | nil =>
    intro f g f' flags t run
    cases run
    exact ⟨g, rfl, t⟩
  | cons x xs ih =>
    intro f g f' flags t run
    obtain ⟨⟨found, f₁⟩, first, run⟩ := bind_eq_ok_iff.mp run
    obtain ⟨⟨others, f₂⟩, rest, run⟩ := bind_eq_ok_iff.mp run
    cases run
    obtain ⟨g₁, first, t₁⟩ := t.erase first
    obtain ⟨g₂, rest, t₂⟩ := ih t₁ rest
    refine ⟨g₂, ?_, t₂⟩
    rw [Filter.eraseEach, first, ok_bind]
    show (g₁.eraseEach xs >>= _) = _
    rw [rest]
    rfl

/-- **The header of a filter says what is true of it exactly if it has room for its numbers.** -/
theorem describes_ofFilter_iff {f : Filter} (s : f.Sound) :
    (Header.ofFilter f).Describes f ↔ f.HeaderFits :=
  ⟨fun d => d.headerFits, fun fits => describes_ofFilter s fits⟩

end Filter

/-! ## Filters that were just built -/

namespace Blueprint

open Cuckoo.Filter

/-- What is built: a filter with the wanted settings, empty, of dimensions that the placement rule and
the table both take. -/
theorem build_eq_ok_iff {b : Blueprint} {f : Filter} : b.build = .ok f ↔ ∃ s : Shape,
    b.shape = .ok s ∧ b.scheme.placement.Accepts (UInt64.ofNat s.buckets) ∧ s.check = .ok () ∧
      f = ⟨b.scheme, b.seed, b.budget,
        ⟨⟨s, Array.replicate s.words 0, 0⟩, Draw.Keystream.ofSeed b.victimSeed⟩⟩ := by
  unfold build Table.empty
  simp only [bind_eq_ok_iff, pure_eq, Except.ok.injEq]
  constructor
  · rintro ⟨s, shape, _, accepts, _, ⟨_, checked, rfl⟩, rfl⟩
    exact ⟨s, shape, accepts, checked, rfl⟩
  · rintro ⟨s, shape, accepts, checked, rfl⟩
    exact ⟨s, shape, (), accepts, _, ⟨(), checked, rfl⟩, rfl⟩

theorem headerFits_iff_of_build {b : Blueprint} {f : Filter} (built : b.build = .ok f) :
    f.HeaderFits ↔ f.table.shape.slots < 2 ^ 31 := by
  obtain ⟨s, -, -, -, rfl⟩ := build_eq_ok_iff.mp built
  exact ⟨fun fits => fits.slots_lt, fun lt => ⟨lt, Nat.two_pow_pos 63⟩⟩

/-- **A filter that was built can be read back exactly if its buckets have less than `2 ^ 31` slots.**
Then its header is true of it and the filter itself is read. Otherwise the header is not, and nothing
is read, whatever the seed. -/
theorem readable_iff_slots_lt {b : Blueprint} {f : Filter} (built : b.build = .ok f) :
    ((Header.ofFilter f).Describes f ↔ f.table.shape.slots < 2 ^ 31) ∧
    ((∃ g, decode f.encode f.seed = .ok g ∧ (g == f) = true) ↔ f.table.shape.slots < 2 ^ 31) ∧
    ((∃ seed g, decode f.encode seed = .ok g) ↔ f.table.shape.slots < 2 ^ 31) := by
  have s : f.Sound := sound_of_build built
  rw [← headerFits_iff_of_build built]
  refine ⟨describes_ofFilter_iff s, ⟨?_, ?_⟩, ⟨?_, ?_⟩⟩
  · rintro ⟨g, run, -⟩
    exact (exists_decode_encode_iff s f.seed).mp ⟨g, run⟩
  · exact fun fits => ⟨_, decode_encode_of_fits s fits f.seed, (twin_asRead f).beq⟩
  · rintro ⟨seed, run⟩
    exact (exists_decode_encode_iff s seed).mp run
  · exact fun fits => ⟨f.seed, _, decode_encode_of_fits s fits f.seed⟩

theorem small_readable :
    ∃ f, build { extent := .dimensions ⟨4, 2, 8⟩ } = .ok f ∧
      ∃ g, decode f.encode f.seed = .ok g ∧ (g == f) = true := by
  obtain ⟨-, readable, -⟩ := @readable_iff_slots_lt { extent := .dimensions ⟨4, 2, 8⟩ } _ rfl
  exact ⟨_, rfl, readable.mpr (show 2 < 2 ^ 31 by decide)⟩

/-- A single bucket of `2 ^ 31` slots of one bit can be built. Its header has a negative number of
slots, which is refused. -/
theorem longest_bucket_lost : ∃ f : Filter,
    build { extent := .dimensions ⟨1, 2147483648, 1⟩, scheme := .xor } = .ok f ∧
      f.table.shape.slots = 2147483648 ∧ (Header.ofFilter f).slots.toInt = -2147483648 ∧
      decode f.encode f.seed = .error (.negative .slots (-2147483648)) := by
  refine ⟨_, build_eq_ok_iff.mpr ⟨_, rfl, rfl, rfl, rfl⟩, rfl, rfl, ?_⟩
  unfold decode
  rw [read_encode, ok_bind]
  rfl

end Blueprint

end Cuckoo

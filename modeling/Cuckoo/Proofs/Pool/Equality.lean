import Cuckoo.Proofs.Filter.Equality
import Cuckoo.Proofs.Pool.Sound

/-!
# Equal filters of a pool

However two filters came to test equal, built and filled in different orders, copied or read from
different bytes, they can stand in for each other.
-/

set_option autoImplicit false

namespace Cuckoo.Pool

open Hash

/-- **Equality of filters is respected by the operations.** Filters are equal when they hash alike and
their tables have the same fingerprints in each bucket, in whatever order. Then they have the same size,
answer every lookup and deletion alike, take in every object for which one of its buckets has room, and
are equal after each of these operations and after any run of them. All filters of a pool are among the
filters of which this holds. -/
theorem equality_is_respected :
    (∀ (commands : List Command) (replies : List Reply) (p : Pool) (name : String) (f : Filter),
      Pool.empty.run commands = .ok (replies, p) → p.get? name = some f → f.Sound) ∧
    ∀ f g : Filter, f.Sound → g.Sound →
      ((f == g) = true ↔ f.seed = g.seed ∧ f.scheme = g.scheme ∧
        f.table.shape = g.table.shape ∧ ∀ bucket < f.table.shape.buckets,
          (f.table.residents bucket).Perm (g.table.residents bucket)) ∧
      ((f == g) = true → f.Interchangeable g) := by
  refine ⟨fun commands replies p name f run found => sound_of_run run found, ?_⟩
  intro f g s s'
  refine ⟨?_, fun same => ((Filter.beq_iff_alike s s').mp same).interchangeable⟩
  rw [Filter.beq_iff_alike s s']
  constructor
  · intro a
    obtain ⟨same, perm⟩ := Table.alike_iff_residents.mp a.nest.table
    exact ⟨a.seed.symm, a.scheme.symm, same.symm, perm⟩
  · rintro ⟨seed, scheme, same, perm⟩
    exact ⟨seed.symm, scheme.symm, congrArg Scheme.placement scheme.symm,
      Table.alike_iff_residents.mpr ⟨same.symm, perm⟩, s, s'⟩

/-- The bytes of a filter with two buckets of two slots of five bits and one fingerprint. -/
def oneOfFour (word : List UInt8) : List UInt8 :=
  [0, 0, 0, 0, 0, 0, 0, 0, 0, 0, 0, 2, 0, 0, 0, 2, 0, 0, 0, 5, 0, 0, 0, 0, 0, 0, 0, 1,
    0, 0, 0, 0, 0, 0, 0, 1] ++ word

/-- The same fingerprint in the first slot of a bucket, with a bit set behind the last slot, and in the
second slot without one: the filters are equal, and are so after a run that fills the other slot. -/
theorem equal_in_either_slot : ∃ replies p f g,
    Pool.empty.run [.decode "a" (oneOfFour [0x80, 0, 0, 0, 0, 0, 0, 3]) none,
      .decode "b" (oneOfFour [0, 0, 0, 0, 0, 0, 0, 0x60]) none] = .ok (replies, p) ∧
    p.get? "a" = some f ∧ p.get? "b" = some g ∧ f.table.words ≠ g.table.words ∧
    (f == g) = true ∧ ∃ answers f' g',
      f.accessAll [.insert (.int 4 1), .contains (.int 4 1), .erase (.int 4 1)] =
        .ok (answers, f') ∧
      g.accessAll [.insert (.int 4 1), .contains (.int 4 1), .erase (.int 4 1)] =
        .ok (answers, g') ∧
      (f' == g') = true := by
  obtain ⟨reached, equal⟩ := equality_is_respected
  obtain ⟨replies, p, f, g, run, hf, hg, apart, contents, room⟩ : ∃ replies p f g,
      Pool.empty.run [.decode "a" (oneOfFour [0x80, 0, 0, 0, 0, 0, 0, 3]) none,
        .decode "b" (oneOfFour [0, 0, 0, 0, 0, 0, 0, 0x60]) none] = .ok (replies, p) ∧
      p.get? "a" = some f ∧ p.get? "b" = some g ∧ f.table.words ≠ g.table.words ∧
      (f.seed = g.seed ∧ f.scheme = g.scheme ∧ f.table.shape = g.table.shape ∧
        ∀ bucket < f.table.shape.buckets,
          (f.table.residents bucket).Perm (g.table.residents bucket)) ∧
      f.HasRoom (.int 4 1) :=
    ⟨_, _, _, _, rfl, rfl, rfl, by decide, ⟨rfl, rfl, rfl, by decide⟩,
      ⟨_, _, rfl, _, List.mem_cons_self, by decide⟩⟩
  obtain ⟨same_iff, interchange⟩ := equal f g (reached _ _ _ _ _ run hf) (reached _ _ _ _ _ run hg)
  have same := same_iff.mpr contents
  refine ⟨replies, p, f, g, run, hf, hg, apart, same, (interchange same).run _ ?_⟩
  refine ⟨fun x own => ?_, fun _ _ _ => ⟨fun _ other => ?_, fun _ _ _ => ⟨fun _ other => ?_, ?_⟩⟩⟩
  · cases own
    exact room
  · cases other
  · cases other
  · exact fun _ _ _ => trivial

end Cuckoo.Pool

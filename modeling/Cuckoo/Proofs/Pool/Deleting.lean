import Cuckoo.Proofs.Filter.Equality
import Cuckoo.Proofs.Nest.Deleting
import Cuckoo.Proofs.Pool.Sound

/-!
# Objects deleted in any order

Deleting objects one by one is deleting their keys from the nest (`eraseEach_of_accessAll`). So what is left does
not depend on the order in which a filter is asked to delete them, **although which of the deletions find
something may depend on it**, when more copies of a fingerprint are asked for than there are.
-/

set_option autoImplicit false

namespace Cuckoo

open Hash Runs

namespace Filter

theorem eraseEach_of_accessAll : ∀ (xs : List Item) {f : Filter} {flags : List Bool}
    {nest : Nest Draw.Keystream},
    f.nest.accessAll f.rules ((xs.map fun x => x.key f.seed).map .erase) = .ok (flags, nest) →
      f.eraseEach xs = .ok (flags, { f with nest }) := by
  intro xs
  induction xs with
  | nil =>
    intro f flags nest run
    cases run
    rfl
  | cons x xs ih =>
    intro f flags nest run
    obtain ⟨⟨found, nest₁⟩, first, run⟩ := bind_eq_ok_iff.mp run
    obtain ⟨⟨flags', nest₂⟩, rest, run⟩ := bind_eq_ok_iff.mp run
    cases run
    have first : f.nest.erase f.rules (x.key f.seed) = .ok (found, nest₁) := first
    have rest := ih (f := { f with nest := nest₁ }) rest
    rw [eraseEach, erase, first]
    show (eraseEach { f with nest := nest₁ } xs >>= _) = _
    rw [rest]
    rfl

theorem eraseEach_of_withdraws {f : Filter} {xs : List Item} {flags : List Bool}
    {nest : Nest Draw.Keystream}
    (w : Nest.Withdraws f.rules f.nest (xs.map fun x => x.key f.seed) flags nest) :
    f.eraseEach xs = .ok (flags, { f with nest }) ∧
      f.eraseAll xs = .ok (flags.all id, { f with nest }) := by
  have each := eraseEach_of_accessAll xs w.run
  refine ⟨each, ?_⟩
  unfold eraseAll
  rw [each]
  rfl

end Filter

namespace Pool

/-- **Deletions do not depend on their order.** Deleting objects from a filter, with repeats, absent
objects and objects that share fingerprint and buckets, ends with equal filters in every order: each
bucket is left with the same fingerprints, the same number of the deletions find something, and the one
answer for all of them is the same. It is that something was found every time, which is the case if no
class is asked for more copies than it has; in any case each class loses as many as it is asked for, as
far as it has them. All filters of a pool are among the filters of which this holds. -/
theorem deletions_commute :
    (∀ (commands : List Command) (replies : List Reply) (p : Pool) (name : String) (f : Filter),
      Pool.empty.run commands = .ok (replies, p) → p.get? name = some f → f.Sound) ∧
    ∀ f : Filter, f.Sound → ∀ xs : List Item, ∃ flags f',
      f.eraseEach xs = .ok (flags, f') ∧ f.eraseAll xs = .ok (flags.all id, f') ∧
      (flags.all id = true ↔ ∀ v c, v ≠ emptyCell → c < f.table.shape.buckets →
        xs.countP (f.inClass v c) ≤ f.table.copies f.rules.placement v c) ∧
      (∀ v c, v ≠ emptyCell → c < f.table.shape.buckets →
        f'.table.copies f.rules.placement v c +
            min (xs.countP (f.inClass v c)) (f.table.copies f.rules.placement v c) =
          f.table.copies f.rules.placement v c) ∧
      ∀ ys : List Item, xs.Perm ys → ∃ flags' g',
        f.eraseEach ys = .ok (flags', g') ∧ f.eraseAll ys = .ok (flags.all id, g') ∧
        flags'.count true = flags.count true ∧ (f' == g') = true ∧
        ∀ bucket < f.table.shape.buckets,
          (f'.table.residents bucket).Perm (g'.table.residents bucket) := by
  refine ⟨fun commands replies p name f run found => sound_of_run run found, ?_⟩
  intro f s xs
  have withdrawn := fun zs : List Item =>
    Nest.Sound.exists_withdraws f.rules_lawful (zs.map fun x => x.key f.seed) s
  obtain ⟨flags, nest, w⟩ := withdrawn xs
  obtain ⟨each, all⟩ := Filter.eraseEach_of_withdraws w
  have requested : ∀ v c, (xs.map fun x => x.key f.seed).countP (f.nest.inClass f.rules v c) =
      xs.countP (f.inClass v c) := fun v c => List.countP_map
  refine ⟨flags, { f with nest }, each, all, ?_, ?_, ?_⟩
  · rw [w.all_iff]
    simp only [requested]
    rfl
  · intro v c hv hc
    have left := w.copies_eq hv hc
    rw [requested] at left
    show nest.table.copies f.rules.placement v c +
      min _ (f.nest.table.copies f.rules.placement v c) = f.nest.table.copies f.rules.placement v c
    rw [left, Nat.min_comm]
    exact Nat.sub_add_min_cancel _ _
  · intro ys perm
    obtain ⟨flags', nest', w'⟩ := withdrawn ys
    have keys := perm.map fun x => x.key f.seed
    obtain ⟨each', all'⟩ := Filter.eraseEach_of_withdraws w'
    rw [w.all_eq w' keys] at all'
    have tables := w.alike f.rules_lawful s w' keys
    refine ⟨flags', { f with nest := nest' }, each', all', w.count_eq f.rules_lawful s w' keys, ?_, ?_⟩
    · have alike : Filter.Alike { f with nest } { f with nest := nest' } :=
        ⟨rfl, rfl, rfl, tables, w.sound, w'.sound⟩
      exact alike.beq
    · intro bucket hb
      exact (Table.alike_iff_residents.mp tables).2 bucket (w.shape_eq ▸ hb)

/-- The bytes of a filter with two buckets of two slots of five bits, which hold a fingerprint three times:
twice in the first bucket, once in the second one beside another fingerprint. -/
def threeAlike : List UInt8 :=
  [0, 0, 0, 0, 0, 0, 0, 0, 0, 0, 0, 2, 0, 0, 0, 2, 0, 0, 0, 5, 0, 0, 0, 0, 0, 0, 0, 4,
    0, 0, 0, 0, 0, 0, 0, 1, 0, 0, 0, 0, 0, 4, 0x8c, 0x63]

/-- Objects of which one is not there. The others have the fingerprint that is there three times, with the
two buckets in one order or the other. -/
def fiveObjects : List Item := [.int 4 48, .int 4 16, .int 4 24, .int 4 16, .int 4 1]

/-- In the two orders different ones of the objects are not found. -/
theorem deleted_back_to_front : ∃ replies p f f' g',
    Pool.empty.run [.decode "a" threeAlike none] = .ok (replies, p) ∧ p.get? "a" = some f ∧
      f.eraseEach fiveObjects = .ok ([true, true, true, false, false], f') ∧
      f.eraseEach fiveObjects.reverse = .ok ([false, true, true, true, false], g') ∧
      (f' == g') = true := by
  obtain ⟨reached, orders⟩ := deletions_commute
  obtain ⟨replies, p, f, run, hf, first, second⟩ : ∃ replies p f,
      Pool.empty.run [.decode "a" threeAlike none] = .ok (replies, p) ∧ p.get? "a" = some f ∧
      (f.eraseEach fiveObjects).map (·.1) = .ok [true, true, true, false, false] ∧
      (f.eraseEach fiveObjects.reverse).map (·.1) = .ok [false, true, true, true, false] :=
    ⟨_, _, _, rfl, rfl, by decide +kernel, by decide +kernel⟩
  obtain ⟨flags, f', each, -, -, -, permuted⟩ := orders f (reached _ _ _ _ _ run hf) fiveObjects
  obtain ⟨flags', g', each', -, -, same, -⟩ := permuted _ (List.reverse_perm fiveObjects).symm
  rw [each] at first
  rw [each'] at second
  cases Except.ok.inj first
  cases Except.ok.inj second
  exact ⟨replies, p, f, f', g', run, hf, each, each', same⟩

end Pool

end Cuckoo

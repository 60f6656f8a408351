import Cuckoo.Proofs.Nest.Script
import Cuckoo.Proofs.Pool.Sound

/-!
# The size of a filter is exact

The number of fingerprints that a filter reports is that of the cells in use, at any time: after every
command, and after every single change of a cell within an operation.
-/

set_option autoImplicit false

namespace Cuckoo.Pool

open Hash Table

/-- **The count of a table is exact in every state that can be reached**: after any changes of a new
table or of one made from words, after any number of changes that an operation of a nest has made so
far, and in every filter of a pool. So it is never lowered below zero, a filter that reports no
fingerprints has none, and where a merge stops the fingerprints that remain are those not merged. -/
theorem count_is_exact :
    (∀ t, Reached t → t.Tallied) ∧
    (∀ {σ : Type} (r : Rules σ) (n n' : Nest σ) (deeds : List Nest.Deed), Reached n.table →
      n.performAll r deeds = .ok n' → Nest.TalliedAlong r n deeds n') ∧
    (∀ {σ : Type} (r : Rules σ) (n : Nest σ) (other : Table) (o : Outcome (Nest σ)), Reached other →
      n.merge r other = .ok o → ∀ merged remaining load,
        .mergeStopped merged remaining load ∈ o.events → merged + remaining = other.count) ∧
    ∀ (commands : List Command) (replies : List Reply) (p : Pool) (name : String) (f : Filter),
      Pool.empty.run commands = .ok (replies, p) → p.get? name = some f →
      f.table.Tallied ∧
      (f.isEmpty = true ↔ ∀ bucket < f.table.shape.buckets, ∀ slot < f.table.shape.slots,
        f.table.cell bucket slot = 0) ∧
      ∀ deeds : List Nest.Deed, (∀ deed ∈ deeds, deed.Fits f.table.shape) →
        ∃ nest, f.nest.performAll f.rules deeds = .ok nest ∧
          Nest.TalliedAlong f.rules f.nest deeds nest := by
  refine ⟨fun t reached => reached.wellFormed.tallied, ?_, ?_, ?_⟩
  · intro σ r n n' deeds reached run
    exact Nest.talliedAlong reached.wellFormed run
  · intro σ r n other o reached run
    refine Nest.placeAll_remaining run ?_
    rw [Nat.zero_add, reached.wellFormed.count_eq]
  · intro commands replies p name f run found
    have s : f.Sound := sound_of_run run found
    have tallied : f.table.Tallied := s.wellFormed.tallied
    refine ⟨tallied, ?_, ?_⟩
    · rw [← tallied.eq_zero_iff]
      exact beq_iff_eq
    · intro deeds fits
      obtain ⟨nest, performed, -⟩ := s.exists_performAll f.rules_lawful f.picksInRange deeds fits
      exact ⟨nest, performed, Nest.talliedAlong s.wellFormed performed⟩

/-- An insertion that fails writes six times into a full bucket, and the count is right after the second
eviction; a merge stops with everything still to come; a filter is empty again after a deletion. -/
theorem tallied_half_way :
    (∃ n' t, Nest.crowded.performAll Nest.oneWay [.insert ⟨5, 7⟩] = .ok n' ∧
      n'.table.words = Nest.crowded.table.words ∧
      Nest.crowded.table.editAll ((Nest.crowded.script Nest.oneWay [.insert ⟨5, 7⟩]).take 5) = .ok t ∧
      t.words = #[0x0107] ∧ t.Tallied) ∧
    (∃ o, Nest.crowded.merge Nest.oneWay Nest.crowded.table = .ok o ∧
      .mergeStopped 0 2 ⟨2, 4⟩ ∈ o.events ∧ 0 + 2 = Nest.crowded.table.count) ∧
    ∃ replies p f, Pool.empty.run [.build "a" ⟨.dimensions ⟨4, 2, 8⟩, .xor, 7, 5, 2⟩,
        .insert "a" (.int 4 1), .erase "a" (.int 4 1)] = .ok (replies, p) ∧
      p.get? "a" = some f ∧ f.isEmpty = true ∧ f.table.Tallied ∧ f.table.cell 3 1 = 0 := by
  obtain ⟨reached, nests, merges, pools⟩ := count_is_exact
  have full : Reached Nest.crowded.table := reached_iff_wellFormed.mpr ⟨rfl, rfl, rfl⟩
  refine ⟨?_, ?_, ?_⟩
  · obtain ⟨n', run, untouched⟩ : ∃ n',
        Nest.crowded.performAll Nest.oneWay [.insert ⟨5, 7⟩] = .ok n' ∧
        n'.table.words = Nest.crowded.table.words := ⟨_, rfl, rfl⟩
    obtain ⟨t, before, tallied⟩ := (nests _ _ _ _ full run).prefixes 5
    have words : (Nest.crowded.table.editAll
      ((Nest.crowded.script Nest.oneWay [.insert ⟨5, 7⟩]).take 5)).map (·.words) =
        .ok #[0x0107] := rfl
    rw [before] at words
    exact ⟨n', t, run, untouched, before, Except.ok.inj words, tallied⟩
  · obtain ⟨o, run, stopped⟩ : ∃ o, Nest.crowded.merge Nest.oneWay Nest.crowded.table = .ok o ∧
        .mergeStopped 0 2 ⟨2, 4⟩ ∈ o.events := ⟨_, rfl, by decide⟩
    exact ⟨o, run, stopped, merges _ _ _ _ full run 0 2 _ stopped⟩
  · obtain ⟨replies, p, f, run, found, shape, empty⟩ : ∃ replies p f,
        Pool.empty.run [.build "a" ⟨.dimensions ⟨4, 2, 8⟩, .xor, 7, 5, 2⟩, .insert "a" (.int 4 1),
          .erase "a" (.int 4 1)] = .ok (replies, p) ∧ p.get? "a" = some f ∧
        f.table.shape = ⟨4, 2, 8⟩ ∧ f.isEmpty = true := ⟨_, _, _, rfl, rfl, rfl, rfl⟩
    obtain ⟨tallied, empty_iff, -⟩ := pools _ _ _ _ _ run found
    rw [shape] at empty_iff
    exact ⟨replies, p, f, run, found, empty, tallied,
      empty_iff.mp empty 3 (by decide) 1 (by decide)⟩

end Cuckoo.Pool

import Cuckoo.Proofs.Pool.Sound

/-!
# One filter into another

What a merge does to a nest is what absorbing another filter does to a filter of a pool, as long as the
two are different filters that hash and place alike. Otherwise the command is answered with a failure,
and nothing has happened.
-/

set_option autoImplicit false

namespace Cuckoo.Pool

open Hash Runs

section

variable {p : Pool} {name other : String} {f g : Filter} (hf : p.get? name = some f)
  (hg : p.get? other = some g)
include hf hg

theorem step_absorb_of_compatible (s : p.Sound) (h : compatible name other f g = true) :
    ∃ o, f.nest.merge f.rules g.table = .ok o ∧ Nest.Unites f.rules f.nest g.table o ∧
      p.step (.absorb name other) =
        .ok (⟨.flag o.done, o.events⟩, p.set name { f with nest := o.state }) := by
  obtain ⟨apart, agrees⟩ := Bool.and_eq_true _ _ |>.mp h
  obtain ⟨o, merge, run, -, -, unites⟩ := Filter.exists_absorb (s hf) (s hg) agrees
  refine ⟨o, merge, unites, ?_⟩
  rw [step, withFilter_of_some hf, withFilter_of_some hg, if_neg (bne_iff_ne.mp apart), run]
  rfl

theorem step_absorb_of_not_compatible (h : compatible name other f g = false) :
    p.step (.absorb name other) =
      .ok (⟨.failure (.incompatible f.describe g.describe), []⟩, p) := by
  rw [step, withFilter_of_some hf, withFilter_of_some hg]
  by_cases same : name = other
  · rw [if_pos same]
    rfl
  · have differ : f.agrees g = false := by
      unfold compatible at h
      rwa [bne_iff_ne.mpr same, Bool.true_and] at h
    unfold Filter.absorb
    rw [if_neg same, differ]
    rfl

end

/-- **Merging is the union of the multisets of fingerprints.** A merge adds every entry of the other
table to its class, or those before the first entry that finds no place within the budget.

In a pool, absorbing a filter that is compatible is such a merge. Any other filter is an invalid
argument, and the pool stays as it is. -/
theorem merging_unites :
    (∀ {σ : Type} (r : Rules σ) (n : Nest σ) (other : Table), r.placement.Lawful →
      r.PicksInRange → n.Sound r → other.WellFormed → other.shape = n.table.shape →
      ∃ o, n.merge r other = .ok o ∧ Nest.Unites r n other o) ∧
    ∀ (commands : List Command) (replies : List Reply) (p : Pool) (name other : String)
      (f g : Filter), Pool.empty.run commands = .ok (replies, p) →
      p.get? name = some f → p.get? other = some g →
      (compatible name other f g = true → ∃ o, f.nest.merge f.rules g.table = .ok o ∧
        Nest.Unites f.rules f.nest g.table o ∧
        p.step (.absorb name other) =
          .ok (⟨.flag o.done, o.events⟩, p.set name { f with nest := o.state })) ∧
      (compatible name other f g = false →
        p.step (.absorb name other) =
          .ok (⟨.failure (.incompatible f.describe g.describe), []⟩, p) ∧
        (Failure.incompatible f.describe g.describe).report.kind = .invalidArgument) := by
  constructor
  · intro σ r n other hP hpick s ho same
    obtain ⟨o, run, -, -, unites⟩ := s.exists_merge hP hpick ho same
    exact ⟨o, run, unites⟩
  · intro commands replies p name other f g run hf hg
    obtain ⟨_, p', run', s⟩ := sound_empty.exists_run commands
    cases run.symm.trans run'
    refine ⟨fun h => step_absorb_of_compatible hf hg s h, fun h => ?_⟩
    exact ⟨step_absorb_of_not_compatible hf hg h, rfl⟩

def smallest (seed : UInt64) : Blueprint := ⟨.dimensions ⟨4, 2, 8⟩, .xor, seed, 1, 2⟩

/-- Filters of one bucket with two slots, which hold one object, two objects, and none. They never
evict. -/
def oneTwoBare : List Command :=
  let single : Blueprint := ⟨.dimensions ⟨1, 2, 8⟩, .xor, 1, 1, 0⟩
  [.build "one" single, .build "two" single, .build "bare" single, .insert "one" (.int 4 1),
    .insert "two" (.int 4 2), .insert "two" (.int 4 3)]

/-- A fingerprint is merged into a full bucket. Of three filters in a pool, one takes in all that another
one holds, and one is full halfway. Two filters with different seeds are not merged. -/
theorem stocked_united :
    (∃ o, Nest.stocked.merge Nest.byTurns ⟨⟨4, 2, 8⟩, #[1], 1⟩ = .ok o ∧ o.done = true ∧
      o.state.table.copies Placement.xor 1 0 =
        Nest.stocked.table.copies Placement.xor 1 0 + 1 ∧ o.state.table.count = 5) ∧
    (∃ replies p one two bare, Pool.empty.run oneTwoBare = .ok (replies, p) ∧
      p.get? "one" = some one ∧ p.get? "two" = some two ∧ p.get? "bare" = some bare ∧
      (∃ o : Outcome (Nest Draw.Keystream), p.step (.absorb "bare" "two") =
          .ok (⟨.flag true, o.events⟩, p.set "bare" { bare with nest := o.state }) ∧
        o.state.table.count = 2) ∧
      ∃ (o : Outcome (Nest Draw.Keystream)) (placed : List (Nat × UInt64)),
        p.step (.absorb "one" "two") =
          .ok (⟨.flag false, o.events⟩, p.set "one" { one with nest := o.state }) ∧
        Nest.TakesIn one.rules one.nest placed o.state ∧ placed.length = 1) ∧
    ∃ replies p failure, Pool.empty.run [.build "a" (smallest 1), .build "b" (smallest 2)] =
        .ok (replies, p) ∧
      p.step (.absorb "a" "b") = .ok (⟨.failure failure, []⟩, p) ∧
      failure.report.kind = .invalidArgument := by
  obtain ⟨nests, pools⟩ := merging_unites
  refine ⟨?_, ?_, ?_⟩
  · obtain ⟨o, run, unites⟩ := nests Nest.byTurns Nest.stocked ⟨⟨4, 2, 8⟩, #[1], 1⟩
      Placement.xor_lawful Nest.byTurns_picksInRange Nest.stocked_sound ⟨rfl, rfl, rfl⟩ rfl
    have ends : (Nest.stocked.merge Nest.byTurns ⟨⟨4, 2, 8⟩, #[1], 1⟩).map (·.done) = .ok true := rfl
    rw [run] at ends
    have done : o.done = true := Except.ok.inj ends
    obtain ⟨copies, count, -⟩ := unites.complete done
    exact ⟨o, run, done, copies 1 0 (by decide) (by decide), count⟩
  · obtain ⟨replies, p, one, two, bare, run, hone, htwo, hnone, taken, kept, stops, completes⟩ :
        ∃ replies p one two bare, Pool.empty.run oneTwoBare = .ok (replies, p) ∧
          p.get? "one" = some one ∧ p.get? "two" = some two ∧ p.get? "bare" = some bare ∧
          compatible "bare" "two" bare two = true ∧ compatible "one" "two" one two = true ∧
          (one.nest.merge one.rules two.table).map (fun o => (o.done, o.state.table.count)) =
            .ok (false, one.nest.table.count + 1) ∧
          (bare.nest.merge bare.rules two.table).map (fun o => (o.done, o.state.table.count)) =
            .ok (true, 2) :=
      ⟨_, _, _, _, _, rfl, rfl, rfl, rfl, rfl, rfl, rfl, rfl⟩
    refine ⟨replies, p, one, two, bare, run, hone, htwo, hnone, ?_, ?_⟩
    · obtain ⟨o, merge, -, step⟩ :=
        (pools _ replies p "bare" "two" bare two run hnone htwo).1 taken
      rw [merge] at completes
      obtain ⟨done, count⟩ := Prod.mk.inj (Except.ok.inj completes)
      exact ⟨o, done ▸ step, count⟩
    · obtain ⟨o, merge, unites, step⟩ :=
        (pools _ replies p "one" "two" one two run hone htwo).1 kept
      rw [merge] at stops
      obtain ⟨done, count⟩ := Prod.mk.inj (Except.ok.inj stops)
      obtain ⟨placed, takesIn⟩ := unites.takesIn_of_stopped done
      have grown := takesIn.count_eq
      exact ⟨o, placed, done ▸ step, takesIn, by omega⟩
  · obtain ⟨replies, p, f, g, run, hf, hg, apart⟩ : ∃ replies p f g,
        Pool.empty.run [.build "a" (smallest 1), .build "b" (smallest 2)] = .ok (replies, p) ∧
        p.get? "a" = some f ∧ p.get? "b" = some g ∧ compatible "a" "b" f g = false :=
      ⟨_, _, _, _, rfl, rfl, rfl, rfl⟩
    obtain ⟨refused, kind⟩ := (pools _ replies p "a" "b" f g run hf hg).2 apart
    exact ⟨replies, p, _, run, refused, kind⟩

end Cuckoo.Pool

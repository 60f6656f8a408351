import Cuckoo.Proofs.Nest.Counting

/-!
# A larger budget only helps

Two insertions of the same key under budgets of different size make the same evictions as far as both
of them go. So the one with the larger budget settles where the other one settles, in the same nest, and
where it gives up the other one has given up before.

Nothing is asked of the placement rule, of the generator or of the table. The one thing to be shown
besides is that **giving up early never refuses**: evictions that could be made can be undone, since a
table takes an overwrite of a cell whatever its cells hold.
-/

set_option autoImplicit false

namespace Cuckoo

open Hash Runs

/-- The same rules with another budget. -/
def Rules.within {σ : Type} (r : Rules σ) (budget : Nat) : Rules σ := { r with budget }

/-! ## Cells that can be overwritten -/

namespace Table

/-- Two tables have the same cells, whatever is in them. -/
structure SameFrame (t u : Table) : Prop where
  shape_eq : u.shape = t.shape
  size_eq : u.words.size = t.words.size

theorem exchange_eq_ok_iff {t : Table} {value : UInt64} {bucket slot : Nat} :
    (∃ stored, t.exchange value bucket slot = .ok stored) ↔
      t.checkSlot bucket slot = .ok () ∧
        BitString.checkSpan t.words (t.shape.offset bucket slot) t.shape.bits = .ok () := by
  unfold exchange BitString.write
  constructor
  · rintro ⟨stored, run⟩
    obtain ⟨_, checked, run⟩ := bind_eq_ok_iff.mp run
    obtain ⟨_, written, -⟩ := bind_eq_ok_iff.mp run
    obtain ⟨_, span, -⟩ := bind_eq_ok_iff.mp written
    exact ⟨checked, span⟩
  · rintro ⟨checked, span⟩
    rw [checked, span]
    exact ⟨_, rfl⟩

theorem sameFrame_exchange {t u : Table} {value old : UInt64} {bucket slot : Nat}
    (run : t.exchange value bucket slot = .ok (old, u)) : t.SameFrame u := by
  obtain ⟨_, -, run⟩ := bind_eq_ok_iff.mp run
  obtain ⟨_, written, run⟩ := bind_eq_ok_iff.mp run
  obtain ⟨_, -, written⟩ := bind_eq_ok_iff.mp written
  cases written
  cases run
  exact ⟨rfl, BitString.size_poke ..⟩

/-- Where one value can be written, every value can, also into a table with other contents. -/
theorem SameFrame.exists_exchange {t u : Table} (frame : t.SameFrame u) {value : UInt64}
    {bucket slot : Nat} (run : ∃ stored, t.exchange value bucket slot = .ok stored)
    (value' : UInt64) : ∃ stored, u.exchange value' bucket slot = .ok stored := by
  obtain ⟨checked, span⟩ := exchange_eq_ok_iff.mp run
  rw [checkSlot_eq_ok_iff] at checked
  rw [BitString.checkSpan_eq_ok_iff] at span
  rw [exchange_eq_ok_iff, checkSlot_eq_ok_iff, BitString.checkSpan_eq_ok_iff, frame.shape_eq,
    frame.size_eq]
  exact ⟨checked, span⟩

end Table

namespace Nest

variable {σ : Type}

/-- Evictions that concern cells of a table, so that they can be undone. -/
def Undoable (t : Table) (evictions : List Eviction) : Prop :=
  ∀ e ∈ evictions, ∃ stored, t.exchange e.victim e.bucket e.slot = .ok stored

theorem Undoable.of_sameFrame {t u : Table} {evictions : List Eviction}
    (undoable : Undoable t evictions) (frame : t.SameFrame u) : Undoable u evictions :=
  fun e mem => frame.exists_exchange (undoable e mem) _

theorem Undoable.exists_undo : ∀ {evictions : List Eviction} {t : Table}, Undoable t evictions →
    ∃ u, undo evictions t = .ok u := by
  intro evictions
  induction evictions with
  | nil => exact fun _ => ⟨_, rfl⟩
  | cons e evictions ih =>
    intro t undoable
    obtain ⟨⟨old, next⟩, run⟩ := undoable e List.mem_cons_self
    have rest : Undoable t evictions := fun e' mem => undoable e' (List.mem_cons_of_mem _ mem)
    obtain ⟨u, undone⟩ := ih (rest.of_sameFrame (Table.sameFrame_exchange run))
    refine ⟨u, ?_⟩
    rw [undo, run]
    exact undone

theorem evict_eq_ok {r : Rules σ} {n next : Nest σ} {fingerprint : UInt64} {bucket : Nat}
    {e : Eviction} (run : n.evict r fingerprint bucket = .ok (e, next)) :
    n.table.exchange fingerprint e.bucket e.slot = .ok (e.victim, next.table) := by
  obtain ⟨⟨slot, picker⟩, -, run⟩ := bind_eq_ok_iff.mp run
  obtain ⟨⟨victim, table⟩, stored, run⟩ := bind_eq_ok_iff.mp run
  cases run
  exact stored

/-! ## Chains under two budgets -/

theorem chase_within (r : Rules σ) (budget : Nat) : chase (r.within budget) = chase r := by
  funext left
  induction left with
  | zero => rfl
  | succ left ih =>
    funext n fingerprint bucket trail
    rw [chase, chase, ih]
    rfl

/-- A chain that settles is not changed by evictions that it might have made and did not. -/
theorem chase_settled_of_le {r : Rules σ} : ∀ {left left' : Nat}, left ≤ left' →
    ∀ {n : Nest σ} {fingerprint : UInt64} {bucket : Nat} {trail : List Eviction} {attempts : Nat}
      {last : Nest σ}, chase r left n fingerprint bucket trail = .ok (.settled attempts last) →
      chase r left' n fingerprint bucket trail = .ok (.settled attempts last) := by
  intro left
  induction left with
  | zero =>
    intro left' _ n fingerprint bucket trail attempts last run
    cases run
  | succ left ih =>
    intro left' le n fingerprint bucket trail attempts last run
    obtain ⟨more, rfl⟩ := Nat.exists_eq_add_of_le' (Nat.lt_of_succ_le le)
    obtain ⟨⟨e, next⟩, evicted, run⟩ := bind_eq_ok_iff.mp run
    obtain ⟨found, stored, run⟩ := bind_eq_ok_iff.mp run
    rw [show more + (left + 1) = more + left + 1 from rfl, chase, evicted, ok_bind]
    dsimp only at stored run ⊢
    rw [stored, ok_bind]
    cases found with
    | some table => exact run
    | none => exact ih (Nat.le_add_left left more) run

/-- What a chain of evictions does under a smaller budget: it settles, or it is spent and can be undone. -/
theorem exists_chase_of_le {r : Rules σ} : ∀ {left left' : Nat}, left ≤ left' →
    ∀ {n : Nest σ} {fingerprint : UInt64} {bucket : Nat} {trail : List Eviction} {chain' : Chain σ},
      chase r left' n fingerprint bucket trail = .ok chain' → Undoable n.table trail →
      (∃ attempts last,
        chase r left n fingerprint bucket trail = .ok (.settled attempts last)) ∨
      ∃ evictions last, chase r left n fingerprint bucket trail = .ok (.exhausted evictions last) ∧
        Undoable last.table evictions := by
  intro left
  induction left with
  | zero =>
    intro left' _ n fingerprint bucket trail chain' _ undoable
    exact Or.inr ⟨trail, n, rfl, undoable⟩
  | succ left ih =>
    intro left' le n fingerprint bucket trail chain' run undoable
    obtain ⟨more, rfl⟩ := Nat.exists_eq_add_of_le' (Nat.lt_of_succ_le le)
    obtain ⟨⟨e, next⟩, evicted, run⟩ := bind_eq_ok_iff.mp run
    obtain ⟨found, stored, run⟩ := bind_eq_ok_iff.mp run
    -- the eviction that was made can be undone along with those before it
    have exchanged := evict_eq_ok evicted
    have frame := Table.sameFrame_exchange exchanged
    have undoable' : Undoable next.table (e :: trail) := by
      intro e' mem
      rcases List.mem_cons.mp mem with rfl | mem
      · exact frame.exists_exchange ⟨_, exchanged⟩ _
      · exact undoable.of_sameFrame frame e' mem
    rw [chase, evicted, ok_bind]
    dsimp only at stored run ⊢
    rw [stored, ok_bind]
    cases found with
    | some table => exact Or.inl ⟨_, _, rfl⟩
    | none => exact ih (Nat.le_add_left left more) run undoable'

/-! ## Runs that outdo others -/

/-- The first run succeeds wherever the second one does, with the same outcome, and does not come to an
end without the second one coming to an end as well. -/
structure Outdoes (run' run : Checked (Outcome (Nest σ))) : Prop where
  same : ∀ o, run = .ok o → o.done = true → run' = .ok o
  ends : ∀ o', run' = .ok o' → ∃ o, run = .ok o

theorem Outdoes.failed {run' run : Checked (Outcome (Nest σ))} (outdoes : Outdoes run' run)
    {o' : Outcome (Nest σ)} (ran : run' = .ok o') (failed : o'.done = false) :
    ∃ o, run = .ok o ∧ o.done = false := by
  obtain ⟨o, ran'⟩ := outdoes.ends o' ran
  refine ⟨o, ran', Bool.eq_false_iff.mpr fun done => ?_⟩
  rw [outdoes.same o ran' done] at ran
  cases ran
  rw [done] at failed
  cases failed

theorem outdoes_refl (run : Checked (Outcome (Nest σ))) : Outdoes run run :=
  ⟨fun _ ran _ => ran, fun o ran => ⟨o, ran⟩⟩

/-- A step that the budget does not enter into. -/
theorem outdoes_bind {α : Type} {x : Checked α} {f' f : α → Checked (Outcome (Nest σ))}
    (rest : ∀ a, Outdoes (f' a) (f a)) : Outdoes (x >>= f') (x >>= f) := by
  cases x with
  | error refusal => exact outdoes_refl _
  | ok a => exact rest a

section

variable {r : Rules σ} {k k' : Nat} (le : k ≤ k')
include le

theorem outdoes_relocate (n : Nest σ) (fingerprint : UInt64) (bucket : Nat) :
    Outdoes (n.relocate (r.within k') fingerprint bucket)
      (n.relocate (r.within k) fingerprint bucket) := by
  unfold relocate
  rw [chase_within, chase_within]
  constructor
  · intro o run done
    obtain ⟨chain, chased, run⟩ := bind_eq_ok_iff.mp run
    cases chain with
    | settled attempts last =>
      have longer : chase r (r.within k').budget n fingerprint bucket [] = _ :=
        chase_settled_of_le le chased
      rw [longer]
      exact run
    | exhausted evictions last =>
      obtain ⟨table, -, run⟩ := bind_eq_ok_iff.mp run
      cases run
      cases done
  · intro o' run
    obtain ⟨chain', chased, -⟩ := bind_eq_ok_iff.mp run
    obtain ⟨attempts, last, shorter⟩ | ⟨evictions, last, shorter, undoable⟩ :=
      exists_chase_of_le le chased (List.forall_mem_nil _)
    · have shorter : chase r (r.within k).budget n fingerprint bucket [] = _ := shorter
      rw [shorter]
      exact ⟨_, rfl⟩
    · have shorter : chase r (r.within k).budget n fingerprint bucket [] = _ := shorter
      obtain ⟨table, undone⟩ := undoable.exists_undo
      rw [shorter, ok_bind]
      dsimp only
      rw [undone]
      exact ⟨_, rfl⟩

theorem outdoes_insert (n : Nest σ) (key : Key) :
    Outdoes (n.insert (r.within k') key) (n.insert (r.within k) key) := by
  refine outdoes_bind fun (fingerprint, home) => outdoes_bind fun first => ?_
  cases first with
  | some table => exact outdoes_refl _
  | none =>
    refine outdoes_bind fun second => ?_
    cases second with
    | some table => exact outdoes_refl _
    | none => exact outdoes_relocate le n fingerprint home

theorem outdoes_place (n : Nest σ) (fingerprint : UInt64) (bucket : Nat) :
    Outdoes (n.place (r.within k') fingerprint bucket) (n.place (r.within k) fingerprint bucket) := by
  refine outdoes_bind fun found => ?_
  cases found with
  | some table => exact outdoes_refl _
  | none => exact outdoes_relocate le n fingerprint bucket

theorem outdoes_placeAll (total : Nat) : ∀ (entries : List (Nat × UInt64)) (merged : Nat)
    (n : Nest σ), Outdoes (placeAll (r.within k') total merged n entries)
      (placeAll (r.within k) total merged n entries) := by
  intro entries
  induction entries with
  | nil => exact fun _ _ => outdoes_refl _
  | cons entry entries ih =>
    intro merged n
    obtain ⟨bucket, fingerprint⟩ := entry
    have one := outdoes_place (r := r) le n fingerprint bucket
    rw [placeAll, placeAll]
    cases placed : n.place (r.within k) fingerprint bucket with
    | error refusal =>
      refine ⟨fun _ run _ => (by cases run), fun _ run => ?_⟩
      obtain ⟨first, placed', -⟩ := bind_eq_ok_iff.mp run
      obtain ⟨_, ran⟩ := one.ends first placed'
      rw [placed] at ran
      cases ran
    | ok first =>
      rw [ok_bind]
      cases done : first.done with
      | true =>
        -- the placement is the same under both budgets, and what follows is so by induction
        rw [one.same first placed done, ok_bind, done, if_pos rfl, if_pos rfl]
        have later := ih (merged + 1) first.state
        constructor
        · intro o run ended
          obtain ⟨rest, more, ends⟩ := bind_eq_ok_iff.mp run
          cases ends
          rw [later.same rest more ended]
          rfl
        · intro o' run
          obtain ⟨rest', more, -⟩ := bind_eq_ok_iff.mp run
          obtain ⟨rest, more'⟩ := later.ends rest' more
          rw [more']
          exact ⟨_, rfl⟩
      | false =>
        rw [if_neg (by decide)]
        refine ⟨fun o run ended => ?_, fun _ _ => ⟨_, rfl⟩⟩
        cases run
        cases ended

end

/-- **A larger budget only helps.** What an insertion or a merge stores with some budget it stores with
every larger one, and ends with the same table, the same generator and the same events; and what fails
with the larger budget fails with the smaller one. -/
theorem larger_budget_only_helps (r : Rules σ) (n : Nest σ) {k k' : Nat} (le : k ≤ k') :
    (∀ key o, n.insert (r.within k) key = .ok o → o.done = true →
      n.insert (r.within k') key = .ok o) ∧
    (∀ key o', n.insert (r.within k') key = .ok o' → o'.done = false →
      ∃ o, n.insert (r.within k) key = .ok o ∧ o.done = false) ∧
    (∀ other o, n.merge (r.within k) other = .ok o → o.done = true →
      n.merge (r.within k') other = .ok o) ∧
    ∀ other o', n.merge (r.within k') other = .ok o' → o'.done = false →
      ∃ o, n.merge (r.within k) other = .ok o ∧ o.done = false := by
  refine ⟨?_, ?_, ?_, ?_⟩
  · intro key o
    exact (outdoes_insert le n key).same o
  · intro key o'
    exact (outdoes_insert le n key).failed
  · intro other o
    exact (outdoes_placeAll le other.count other.entries 0 n).same o
  · intro other o'
    exact (outdoes_placeAll le other.count other.entries 0 n).failed

/-- A table with one fingerprint. -/
def single : Table := ⟨⟨4, 2, 8⟩, #[0x07], 1⟩

/-- Two evictions are enough for a key and for a table with its fingerprint, so 500 are; one is not enough,
so none is not. -/
theorem two_evictions_suffice :
    (∃ o, o.done = true ∧ stocked.insert (byTurns.within 2) ⟨4, 7⟩ = .ok o ∧
      stocked.insert (byTurns.within 500) ⟨4, 7⟩ = .ok o) ∧
    (∃ o, stocked.insert (byTurns.within 0) ⟨4, 7⟩ = .ok o ∧ o.done = false) ∧
    (∃ o, o.done = true ∧ stocked.merge (byTurns.within 2) single = .ok o ∧
      stocked.merge (byTurns.within 500) single = .ok o) ∧
    ∃ o, stocked.merge (byTurns.within 0) single = .ok o ∧ o.done = false := by
  obtain ⟨stores, -, merges, -⟩ := larger_budget_only_helps byTurns stocked (show 2 ≤ 500 by decide)
  obtain ⟨-, fails, -, stops⟩ := larger_budget_only_helps byTurns stocked (show 0 ≤ 1 by decide)
  refine ⟨⟨_, ?_, rfl, stores ⟨4, 7⟩ _ rfl rfl⟩, fails ⟨4, 7⟩ _ rfl rfl,
    ⟨_, ?_, rfl, merges _ _ rfl rfl⟩, stops _ _ rfl rfl⟩
  · rfl
  · rfl

end Nest

end Cuckoo

import Cuckoo.Proofs.Nest.Recorded
import Cuckoo.Proofs.Nest.Union
import Cuckoo.Proofs.Table.Tally

/-!
# Where scripts lead

The script of an operation lists the changes that it makes to its table, one after the other. **Carrying out
the script of an operation comes to the table after the operation**, so the tables on the way are those
after the first so many changes, and what every change keeps is kept half-way through.

A script is read off the rules and asks nothing of them: all this holds of every rule and of every way
to pick victims, lawful or not.
-/

set_option autoImplicit false

namespace Cuckoo

open Hash Runs Table

/-! ## One change -/

namespace Table

variable {t : Table}

theorem editAll_cons {u : Table} {e : Edit} (run : t.edit e = .ok u) (edits : List Edit) :
    t.editAll (e :: edits) = u.editAll edits := by
  rw [editAll, run]
  rfl

theorem edit_exchange {value old : UInt64} {bucket slot : Nat} {u : Table}
    (run : t.exchange value bucket slot = .ok (old, u)) :
    t.edit (.exchange value bucket slot) = .ok u := by
  rw [edit, run]
  rfl

theorem edit_put {fingerprint : UInt64} {bucket : Nat} {found : Option Table}
    (run : t.put fingerprint bucket = .ok found) :
    t.edit (.put fingerprint bucket) = .ok (found.getD t) := by
  rw [edit, run]
  rfl

theorem edit_replaceFirst {new old : UInt64} {bucket : Nat} {found : Option Table}
    (run : t.replaceFirst new old bucket = .ok found) :
    t.edit (.replaceFirst new old bucket) = .ok (found.getD t) := by
  rw [edit, run]
  rfl

end Table

/-- The nest in which a chain of evictions ended. -/
def Chain.nest {σ : Type} : Chain σ → Nest σ
  | .settled _ n => n
  | .exhausted _ n => n

namespace Nest

variable {σ : Type}

/-! ## Scripts lead where the operations lead -/

theorem edit_of_evict {r : Rules σ} {n next : Nest σ} {fingerprint : UInt64} {bucket : Nat}
    {e : Eviction} (run : n.evict r fingerprint bucket = .ok (e, next)) :
    n.table.edit (.exchange fingerprint bucket e.slot) = .ok next.table := by
  obtain ⟨⟨slot, picker⟩, -, run⟩ := bind_eq_ok_iff.mp run
  obtain ⟨⟨victim, table⟩, stored, run⟩ := bind_eq_ok_iff.mp run
  cases run
  exact edit_exchange stored

theorem editAll_chaseEdits {r : Rules σ} : ∀ {left : Nat} {n : Nest σ} {fingerprint : UInt64}
    {bucket : Nat} {trail : List Eviction} {chain : Chain σ},
    chase r left n fingerprint bucket trail = .ok chain →
    n.table.editAll (chaseEdits r left n fingerprint bucket) = .ok chain.nest.table := by
  intro left
  induction left with
  | zero =>
    intro n fingerprint bucket trail chain run
    cases run
    rfl
  | succ left ih =>
    intro n fingerprint bucket trail chain run
    obtain ⟨⟨e, next⟩, evicted, run⟩ := bind_eq_ok_iff.mp run
    obtain ⟨found, stored, run⟩ := bind_eq_ok_iff.mp run
    rw [chaseEdits, evicted]
    dsimp only at stored run ⊢
    rw [editAll_cons (edit_of_evict evicted), editAll_cons (edit_put stored), stored]
    cases found with
    | some table =>
      cases run
      rfl
    | none => exact ih run

theorem editAll_undoEdits (evictions : List Eviction) (t : Table) :
    t.editAll (undoEdits evictions) = undo evictions t := by
  induction evictions generalizing t with
  | nil => rfl
  | cons e evictions ih =>
    show t.editAll (.exchange e.victim e.bucket e.slot :: undoEdits evictions) = _
    rw [editAll, edit, undo]
    cases t.exchange e.victim e.bucket e.slot with
    | error => rfl
    | ok stored => exact ih stored.2

theorem editAll_relocateEdits {r : Rules σ} {n : Nest σ} {fingerprint : UInt64} {bucket : Nat}
    {o : Outcome (Nest σ)} (run : n.relocate r fingerprint bucket = .ok o) :
    n.table.editAll (n.relocateEdits r fingerprint bucket) = .ok o.state.table := by
  obtain ⟨chain, chased, run⟩ := bind_eq_ok_iff.mp run
  unfold relocateEdits
  rw [editAll_append (editAll_chaseEdits chased), chased]
  cases chain with
  | settled attempts last =>
    cases run
    rfl
  | exhausted evictions last =>
    obtain ⟨table, undone, run⟩ := bind_eq_ok_iff.mp run
    cases run
    exact (editAll_undoEdits evictions last.table).trans undone

theorem editAll_insertEdits {r : Rules σ} {n : Nest σ} {key : Key} {o : Outcome (Nest σ)}
    (run : n.insert r key = .ok o) : n.table.editAll (n.insertEdits r key) = .ok o.state.table := by
  obtain ⟨⟨fingerprint, home⟩, located, run⟩ := bind_eq_ok_iff.mp run
  obtain ⟨first, stored, run⟩ := bind_eq_ok_iff.mp run
  unfold insertEdits
  rw [located]
  dsimp only
  rw [storeEdits, editAll_cons (edit_put stored), stored]
  cases first with
  | some table =>
    cases run
    rfl
  | none =>
    obtain ⟨second, stored, run⟩ := bind_eq_ok_iff.mp run
    dsimp only [Option.getD_none]
    rw [storeEdits, editAll_cons (edit_put stored), stored]
    cases second with
    | some table =>
      cases run
      rfl
    | none => exact editAll_relocateEdits run

theorem editAll_eraseEdits {r : Rules σ} {n n' : Nest σ} {key : Key} {found : Bool}
    (run : n.erase r key = .ok (found, n')) :
    n.table.editAll (n.eraseEdits r key) = .ok n'.table := by
  obtain ⟨⟨fingerprint, home⟩, located, run⟩ := bind_eq_ok_iff.mp run
  obtain ⟨first, stored, run⟩ := bind_eq_ok_iff.mp run
  unfold eraseEdits
  rw [located]
  dsimp only
  rw [editAll_cons (edit_replaceFirst stored), stored]
  cases first with
  | some table =>
    cases run
    rfl
  | none =>
    obtain ⟨second, stored, run⟩ := bind_eq_ok_iff.mp run
    dsimp only [Option.getD_none]
    rw [editAll_cons (edit_replaceFirst stored)]
    cases second <;> cases run <;> rfl

theorem editAll_placeEdits {r : Rules σ} {n : Nest σ} {fingerprint : UInt64} {bucket : Nat}
    {o : Outcome (Nest σ)} (run : n.place r fingerprint bucket = .ok o) :
    n.table.editAll (n.storeEdits r fingerprint bucket [bucket]) = .ok o.state.table := by
  obtain ⟨found, stored, run⟩ := bind_eq_ok_iff.mp run
  rw [storeEdits, editAll_cons (edit_put stored), stored]
  cases found with
  | some table =>
    cases run
    rfl
  | none => exact editAll_relocateEdits run

theorem editAll_placeAllEdits {r : Rules σ} {total : Nat} : ∀ {entries : List (Nat × UInt64)}
    {merged : Nat} {n : Nest σ} {o : Outcome (Nest σ)},
    placeAll r total merged n entries = .ok o →
    n.table.editAll (n.placeAllEdits r entries) = .ok o.state.table := by
  intro entries
  induction entries with
  | nil =>
    intro merged n o run
    cases run
    rfl
  | cons entry entries ih =>
    intro merged n o run
    obtain ⟨bucket, fingerprint⟩ := entry
    obtain ⟨⟨done, state, events⟩, place, run⟩ := bind_eq_ok_iff.mp run
    rw [placeAllEdits, editAll_append (editAll_placeEdits place), place]
    cases done with
    | false =>
      cases run
      rfl
    | true =>
      obtain ⟨rest, more, run⟩ := bind_eq_ok_iff.mp run
      have later := ih more
      cases run
      exact later

theorem editAll_edits {r : Rules σ} {n n' : Nest σ} {deed : Deed}
    (run : n.perform r deed = .ok n') : n.table.editAll (n.edits r deed) = .ok n'.table := by
  cases deed with
  | insert key =>
    obtain ⟨o, inserted, run⟩ := bind_eq_ok_iff.mp run
    cases run
    exact editAll_insertEdits inserted
  | erase key =>
    obtain ⟨⟨found, m⟩, erased, run⟩ := bind_eq_ok_iff.mp run
    cases run
    exact editAll_eraseEdits erased
  | merge other =>
    obtain ⟨o, merged, run⟩ := bind_eq_ok_iff.mp run
    cases run
    exact editAll_placeAllEdits merged
  | clear =>
    cases run
    rfl

/-- **The script of a sequence of deeds leads to the table that the deeds lead to.** -/
theorem editAll_script {r : Rules σ} : ∀ {deeds : List Deed} {n n' : Nest σ},
    n.performAll r deeds = .ok n' → n.table.editAll (n.script r deeds) = .ok n'.table := by
  intro deeds
  induction deeds with
  | nil =>
    intro n n' run
    cases run
    rfl
  | cons deed deeds ih =>
    intro n n' run
    obtain ⟨next, first, rest⟩ := bind_eq_ok_iff.mp run
    rw [script, editAll_append (editAll_edits first), first]
    exact ih rest

/-- The count of the table is exact all along a sequence of deeds: after every change that one of them
makes, and after the last. The changes are those that a recorded run takes down as it makes them. -/
structure TalliedAlong (r : Rules σ) (n : Nest σ) (deeds : List Deed) (n' : Nest σ) : Prop where
  recorded : (Recorded.performAll r n deeds).run = .ok (n', n.script r deeds)
  leads : n.table.editAll (n.script r deeds) = .ok n'.table
  prefixes : ∀ k, ∃ t, n.table.editAll ((n.script r deeds).take k) = .ok t ∧ t.Tallied
  after : n'.table.Tallied

theorem talliedAlong {r : Rules σ} {n n' : Nest σ} {deeds : List Deed} (h : n.table.WellFormed)
    (run : n.performAll r deeds = .ok n') : TalliedAlong r n deeds n' := by
  have leads := editAll_script run
  have prefixes : ∀ k, ∃ t, n.table.editAll ((n.script r deeds).take k) = .ok t ∧ t.Tallied := by
    intro k
    obtain ⟨t, before, h'⟩ := h.exists_prefix _ leads k
    exact ⟨t, before, h'.tallied⟩
  have recorded : (Recorded.performAll r n deeds).run = .ok (n', n.script r deeds) := by
    rw [Recorded.tells_performAll r deeds n, run]
    rfl
  refine ⟨recorded, leads, prefixes, ?_⟩
  -- the last of the prefixes is the whole script
  obtain ⟨t, whole, tallied⟩ := prefixes (n.script r deeds).length
  rw [List.take_length, leads] at whole
  cases whole
  exact tallied

/-! ## Sound nests carry out every deed -/

/-- A deed makes sense for a table: what is to be merged into it has the same dimensions. -/
def Deed.Fits (shape : Shape) : Deed → Prop
  | .merge other => other.WellFormed ∧ other.shape = shape
  | _ => True

section

variable {r : Rules σ} (hP : r.placement.Lawful) (hpick : r.PicksInRange)
include hP hpick

theorem Sound.exists_perform {n : Nest σ} (s : n.Sound r) {deed : Deed}
    (fits : deed.Fits n.table.shape) : ∃ n', n.perform r deed = .ok n' ∧ n'.Sound r ∧
      n'.table.shape = n.table.shape := by
  cases deed with
  | insert key =>
    obtain ⟨o, run, s', same, -⟩ := s.insert_copies hP hpick key
    refine ⟨o.state, ?_, s', same⟩
    rw [perform, run]
    rfl
  | erase key =>
    obtain ⟨found, n', run, s', same, -⟩ := s.erase_copies hP key
    refine ⟨n', ?_, s', same⟩
    rw [perform, run]
    rfl
  | merge other =>
    obtain ⟨o, run, s', same, -⟩ := s.exists_merge hP hpick fits.1 fits.2
    refine ⟨o.state, ?_, s', same⟩
    rw [perform, run]
    rfl
  | clear => exact ⟨n.clear, rfl, s.of_shape_eq s.wellFormed.clear rfl, rfl⟩

theorem Sound.exists_performAll : ∀ (deeds : List Deed) {n : Nest σ}, n.Sound r →
    (∀ deed ∈ deeds, deed.Fits n.table.shape) → ∃ n', n.performAll r deeds = .ok n' ∧ n'.Sound r := by
  intro deeds
  induction deeds with
  | nil =>
    intro n s _
    exact ⟨n, rfl, s⟩
  | cons deed deeds ih =>
    intro n s fits
    obtain ⟨next, first, s₁, same⟩ := s.exists_perform hP hpick (fits deed List.mem_cons_self)
    obtain ⟨n', rest, s'⟩ := ih s₁ fun other mem => same ▸ fits other (List.mem_cons_of_mem _ mem)
    refine ⟨n', ?_, s'⟩
    rw [performAll, first]
    exact rest

end

/-! ## What is left of a merge -/

theorem relocate_events {r : Rules σ} {n : Nest σ} {fingerprint : UInt64} {bucket : Nat}
    {o : Outcome (Nest σ)} (run : n.relocate r fingerprint bucket = .ok o) (merged remaining : Nat)
    (load : Load) : .mergeStopped merged remaining load ∉ o.events := by
  obtain ⟨chain, -, run⟩ := bind_eq_ok_iff.mp run
  cases chain with
  | settled attempts last =>
    cases run
    simp
  | exhausted evictions last =>
    obtain ⟨table, -, run⟩ := bind_eq_ok_iff.mp run
    cases run
    simp

theorem place_events {r : Rules σ} {n : Nest σ} {fingerprint : UInt64} {bucket : Nat}
    {o : Outcome (Nest σ)} (run : n.place r fingerprint bucket = .ok o) (merged remaining : Nat)
    (load : Load) : .mergeStopped merged remaining load ∉ o.events := by
  obtain ⟨found, -, run⟩ := bind_eq_ok_iff.mp run
  cases found with
  | some table =>
    cases run
    simp
  | none => exact relocate_events run merged remaining load

/-- Where placements stop, those made before and those that remain are all of them. -/
theorem placeAll_remaining {r : Rules σ} {total : Nat} : ∀ {entries : List (Nat × UInt64)}
    {before : Nat} {n : Nest σ} {o : Outcome (Nest σ)},
    placeAll r total before n entries = .ok o → before + entries.length ≤ total →
    ∀ merged remaining load, .mergeStopped merged remaining load ∈ o.events →
      merged + remaining = total := by
  intro entries
  induction entries with
  | nil =>
    intro before n o run _ merged remaining load mem
    cases run
    cases mem
  | cons entry entries ih =>
    intro before n o run most merged remaining load mem
    obtain ⟨bucket, fingerprint⟩ := entry
    obtain ⟨⟨done, state, events⟩, place, run⟩ := bind_eq_ok_iff.mp run
    have apart := place_events place merged remaining load
    rw [List.length_cons] at most
    cases done with
    | false =>
      cases run
      obtain mem | mem := List.mem_append.mp mem
      · exact absurd mem apart
      · cases List.mem_singleton.mp mem
        omega
    | true =>
      obtain ⟨rest, more, run⟩ := bind_eq_ok_iff.mp run
      cases run
      obtain mem | mem := List.mem_append.mp mem
      · exact absurd mem apart
      · exact ih more (by omega) merged remaining load mem

end Nest

end Cuckoo

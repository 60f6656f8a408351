import Cuckoo.Filter.Blueprint
import Cuckoo.Proofs.Draw.Uniform
import Cuckoo.Proofs.Nest.Union
import Mathlib.Data.Multiset.AddSub

/-!
# Objects backed by fingerprints

A filter keeps no objects, so that an object is in it can only be said from outside. `Backs f held`
says it for a multiset of objects: **in every class of fingerprints there are at least as many copies
as there are objects of this class among them**. Which copy is whose is not said and cannot be.

Each operation has one lemma here, which tells what it does to the objects that a filter backs. The
number of a class is all that an eviction, a collision or a merge that stops half-way leaves alone, so
nothing else would go through.
-/

set_option autoImplicit false

namespace Cuckoo.Filter

open Hash Runs

def Sound (f : Filter) : Prop := f.nest.Sound f.rules

def inClass (f : Filter) (fingerprint : UInt64) (bucket : Nat) (x : Item) : Bool :=
  f.nest.inClass f.rules fingerprint bucket (x.key f.seed)

/-- There are enough copies of fingerprints for all these objects. -/
structure Backs (f : Filter) (held : Multiset Item) : Prop where
  sound : f.Sound
  enough : ∀ v c, v ≠ emptyCell → c < f.table.shape.buckets →
    held.countP (fun x => f.inClass v c x = true) ≤ f.table.copies f.rules.placement v c

theorem rules_lawful (f : Filter) : f.rules.placement.Lawful := f.scheme.placement_lawful

theorem picksInRange (f : Filter) : f.rules.PicksInRange :=
  fun s _ pos => Draw.exists_below pos s

theorem inClass_eq_of {f g : Filter} (scheme : g.scheme = f.scheme) (seed : g.seed = f.seed)
    (shape : g.table.shape = f.table.shape) (v : UInt64) (c : Nat) (x : Item) :
    g.inClass v c x = f.inClass v c x := by
  have shape : g.nest.table.shape = f.nest.table.shape := shape
  unfold inClass Nest.inClass Nest.locate Nest.bucketCount rules
  rw [seed, shape, scheme]

section

variable {f : Filter} {held : Multiset Item}

theorem Sound.backs_zero (s : f.Sound) : f.Backs 0 := by
  refine ⟨s, ?_⟩
  intro v c _ _
  rw [Multiset.countP_zero]
  exact Nat.zero_le _

/-- The nest may change, as long as there are enough copies for what is to be backed then. -/
theorem Backs.with_nest {nest : Nest Draw.Keystream} (s : nest.Sound f.rules)
    (same : nest.table.shape = f.table.shape)
    (enough : ∀ v c, v ≠ emptyCell → c < f.table.shape.buckets →
      held.countP (fun x => f.inClass v c x = true) ≤ nest.table.copies f.rules.placement v c) :
    ({ f with nest } : Filter).Backs held := by
  refine ⟨s, ?_⟩
  intro v c hv hc
  have classes : ∀ x, ({ f with nest } : Filter).inClass v c x = f.inClass v c x :=
    fun x => @inClass_eq_of f { f with nest } rfl rfl same v c x
  simp only [classes]
  exact enough v c hv (same ▸ hc)

variable (b : f.Backs held)
include b

/-- An object that is backed is found: its class is not empty. -/
theorem Backs.copies_pos {x : Item} (mem : x ∈ held) {fingerprint : UInt64} {home : Nat}
    (located : f.nest.locate f.rules (x.key f.seed) = .ok (fingerprint, home)) :
    0 < f.table.copies f.rules.placement fingerprint home := by
  obtain ⟨inside, used, -⟩ := Nest.Sound.located f.rules_lawful b.sound located
  -- the object is one of its own class
  exact Nat.lt_of_lt_of_le (Multiset.countP_pos_of_mem mem (Nest.inClass_self located))
    (b.enough _ _ used inside)

theorem Backs.contains {x : Item} (mem : x ∈ held) : f.contains x = .ok true := by
  obtain ⟨fingerprint, home, located, -⟩ :=
    Nest.Sound.exists_locate f.rules_lawful b.sound (x.key f.seed)
  have held := b.copies_pos mem located
  unfold Filter.contains
  rw [Nest.Sound.contains_eq f.rules_lawful b.sound located]
  exact congrArg _ (decide_eq_true held)

omit b in
theorem Sound.exists_contains (s : f.Sound) (x : Item) : ∃ found, f.contains x = .ok found := by
  obtain ⟨fingerprint, home, located, -⟩ :=
    Nest.Sound.exists_locate f.rules_lawful s (x.key f.seed)
  exact ⟨_, Nest.Sound.contains_eq f.rules_lawful s located⟩

/-- Adding an object backs it, if there was room. -/
theorem Backs.insert (x : Item) : ∃ o, f.insert x = .ok o ∧ o.state.seed = f.seed ∧
    o.state.Backs (if o.done then x ::ₘ held else held) := by
  obtain ⟨o, run, s', same, counts⟩ :=
    Nest.Sound.insert_copies f.rules_lawful b.sound f.picksInRange (x.key f.seed)
  refine ⟨o.map fun nest => { f with nest }, ?_, rfl, ?_⟩
  · unfold Filter.insert
    rw [run]
    rfl
  · refine Backs.with_nest s' same ?_
    intro v c hv hc
    have before := b.enough v c hv hc
    rw [counts v c hv hc]
    show Multiset.countP _ (if o.done then x ::ₘ held else held) ≤ f.table.copies _ v c + _
    cases done : o.done with
    | false => simpa using before
    | true =>
      rw [if_pos rfl, Multiset.countP_cons, Bool.true_and]
      exact Nat.add_le_add_right before _

omit b in
/-- Deleting an object that is backed deletes a fingerprint, and backs what is left. -/
theorem Backs.erase {x : Item} (b : f.Backs (x ::ₘ held)) :
    ∃ f', f.erase x = .ok (true, f') ∧ f'.seed = f.seed ∧ f'.Backs held := by
  obtain ⟨fingerprint, home, located, -⟩ :=
    Nest.Sound.exists_locate f.rules_lawful b.sound (x.key f.seed)
  obtain ⟨found, nest, run, s', same, answer, counts⟩ :=
    Nest.Sound.erase_copies f.rules_lawful b.sound (x.key f.seed)
  have there : found = true :=
    (answer _ _ located).mpr (b.copies_pos (Multiset.mem_cons_self _ _) located)
  subst there
  refine ⟨{ f with nest }, ?_, rfl, ?_⟩
  · unfold Filter.erase
    rw [run]
    rfl
  · refine Backs.with_nest s' same ?_
    intro v c hv hc
    have before := b.enough v c hv hc
    have after := counts v c hv hc
    rw [Bool.true_and] at after
    rw [Multiset.countP_cons] at before
    show _ ≤ nest.table.copies _ v c
    change _ ≤ f.nest.table.copies _ v c at before
    unfold inClass at before ⊢
    omega

end

theorem Sound.exists_erase {f : Filter} (s : f.Sound) (x : Item) :
    ∃ found f', f.erase x = .ok (found, f') ∧ f'.Sound := by
  obtain ⟨found, nest, run, s', -⟩ := Nest.Sound.erase_copies f.rules_lawful s (x.key f.seed)
  refine ⟨found, { f with nest }, ?_, s'⟩
  unfold Filter.erase
  rw [run]
  rfl

/-! ## Several objects -/

def flagged (xs : List Item) (flags : List Bool) : List Item :=
  (xs.zip flags).filterMap fun (x, flag) => if flag then some x else none

/-- The objects that `insertAll` adds: those before the first for which there is no room. -/
def stored (f : Filter) : List Item → List Item
  | [] => []
  | x :: xs =>
    match f.insert x with
    | .ok o => if o.done then x :: o.state.stored xs else []
    | .error _ => []

theorem add_coe_cons (held : Multiset Item) (x : Item) (xs : List Item) :
    held + ((x :: xs : List Item) : Multiset Item) = x ::ₘ held + xs := by
  rw [← Multiset.cons_coe, Multiset.add_cons, Multiset.cons_add]

theorem Backs.insertEach : ∀ (xs : List Item) {f : Filter} {held : Multiset Item}, f.Backs held →
    ∃ flags o, f.insertEach xs = .ok (flags, o) ∧ o.state.seed = f.seed ∧
      o.state.Backs (held + flagged xs flags) := by
  intro xs
  induction xs with
  | nil =>
    intro f held b
    exact ⟨[], _, rfl, rfl, by simpa [flagged] using b⟩
  | cons x xs ih =>
    intro f held b
    obtain ⟨first, run, seed, b₁⟩ := b.insert x
    obtain ⟨flags, rest, more, seed', b₂⟩ := ih b₁
    refine ⟨first.done :: flags, ⟨first.done && rest.done, rest.state, first.events ++ rest.events⟩,
      ?_, seed'.trans seed, ?_⟩
    · rw [Filter.insertEach, run, ok_bind, more]
      rfl
    · show rest.state.Backs _
      cases done : first.done with
      | false => simpa [flagged, done] using b₂
      | true => simpa [flagged, done, add_coe_cons] using b₂

theorem Backs.insertAll : ∀ (xs : List Item) {f : Filter} {held : Multiset Item}, f.Backs held →
    ∃ o, f.insertAll xs = .ok o ∧ o.state.seed = f.seed ∧ o.state.Backs (held + f.stored xs) := by
  intro xs
  induction xs with
  | nil =>
    intro f held b
    exact ⟨_, rfl, rfl, by simpa [stored] using b⟩
  | cons x xs ih =>
    intro f held b
    obtain ⟨first, run, seed, b₁⟩ := b.insert x
    cases done : first.done with
    | false =>
      refine ⟨first, ?_, seed, ?_⟩
      · rw [Filter.insertAll, run, ok_bind, done]
        rfl
      · simpa [stored, run, done] using b₁
    | true =>
      obtain ⟨rest, more, seed', b₂⟩ := ih b₁
      refine ⟨{ rest with events := first.events ++ rest.events }, ?_, seed'.trans seed, ?_⟩
      · rw [Filter.insertAll, run, ok_bind, done, if_pos rfl, more]
        rfl
      · simpa [stored, run, done, add_coe_cons] using b₂

theorem Backs.eraseEach : ∀ (xs : List Item) {f : Filter} {held : Multiset Item},
    f.Backs (xs + held) → ∃ f', f.eraseEach xs = .ok (xs.map fun _ => true, f') ∧
      f'.seed = f.seed ∧ f'.Backs held := by
  intro xs
  induction xs with
  | nil =>
    intro f held b
    exact ⟨f, rfl, rfl, by simpa using b⟩
  | cons x xs ih =>
    intro f held b
    rw [← Multiset.cons_coe, Multiset.cons_add] at b
    obtain ⟨f₁, run, seed, b₁⟩ := b.erase
    obtain ⟨f₂, more, seed', b₂⟩ := ih b₁
    refine ⟨f₂, ?_, seed'.trans seed, b₂⟩
    rw [Filter.eraseEach, run, ok_bind]
    show (f₁.eraseEach xs >>= _) = _
    rw [more]
    rfl

theorem Backs.eraseAll {f : Filter} {xs : List Item} {held : Multiset Item} (b : f.Backs (xs + held)) :
    ∃ f', f.eraseAll xs = .ok (true, f') ∧ f'.seed = f.seed ∧ f'.Backs held := by
  obtain ⟨f', run, seed, b'⟩ := Backs.eraseEach xs b
  refine ⟨f', ?_, seed, b'⟩
  unfold Filter.eraseAll
  rw [run]
  simp

theorem Sound.exists_eraseEach : ∀ (xs : List Item) {f : Filter}, f.Sound →
    ∃ flags f', f.eraseEach xs = .ok (flags, f') ∧ f'.Sound := by
  intro xs
  induction xs with
  | nil =>
    intro f s
    exact ⟨[], f, rfl, s⟩
  | cons x xs ih =>
    intro f s
    obtain ⟨found, f₁, run, s₁⟩ := s.exists_erase x
    obtain ⟨flags, f₂, more, s₂⟩ := ih s₁
    refine ⟨found :: flags, f₂, ?_, s₂⟩
    rw [Filter.eraseEach, run, ok_bind]
    show (f₁.eraseEach xs >>= _) = _
    rw [more]
    rfl

theorem Sound.exists_containsEach {f : Filter} (s : f.Sound) : ∀ xs : List Item,
    ∃ flags, f.containsEach xs = .ok flags := by
  unfold containsEach
  intro xs
  induction xs with
  | nil => exact ⟨[], rfl⟩
  | cons x xs ih =>
    obtain ⟨found, run⟩ := s.exists_contains x
    obtain ⟨flags, more⟩ := ih
    refine ⟨found :: flags, ?_⟩
    rw [List.mapM_cons, run, ok_bind, more]
    rfl

theorem Sound.exists_containsAll {f : Filter} (s : f.Sound) : ∀ xs : List Item,
    ∃ found, f.containsAll xs = .ok found := by
  intro xs
  induction xs with
  | nil => exact ⟨true, rfl⟩
  | cons x xs ih =>
    obtain ⟨found, run⟩ := s.exists_contains x
    unfold containsAll
    rw [run, ok_bind]
    cases found with
    | true => exact ih
    | false => exact ⟨false, rfl⟩

/-! ## Whole filters -/

theorem agrees_iff {f g : Filter} : f.agrees g = true ↔
    g.seed = f.seed ∧ g.scheme = f.scheme ∧ g.table.shape = f.table.shape := by
  unfold agrees Table.compatible
  rw [Bool.and_eq_true, Bool.and_eq_true, beq_iff_eq, beq_iff_eq, beq_iff_eq, and_assoc]
  exact and_congr eq_comm (and_congr eq_comm eq_comm)

theorem exists_absorb {f g : Filter} (s : f.Sound) (s' : g.Sound) (agrees : f.agrees g = true) :
    ∃ o, f.nest.merge f.rules g.table = .ok o ∧
      f.absorb g = .ok (.ok (o.map fun nest => { f with nest })) ∧ o.state.Sound f.rules ∧
      o.state.table.shape = f.table.shape ∧ Nest.Unites f.rules f.nest g.table o := by
  obtain ⟨-, -, shape⟩ := agrees_iff.mp agrees
  obtain ⟨o, run, s₁, same, unites⟩ :=
    Nest.Sound.exists_merge f.rules_lawful f.picksInRange s s'.wellFormed shape
  refine ⟨o, run, ?_, s₁, same, unites⟩
  unfold absorb
  rw [if_pos agrees]
  show (f.nest.merge f.rules g.nest.table >>= _) = _
  rw [run]
  rfl

/-- Absorbing another filter backs what both back, if it came to its end. -/
theorem Backs.absorb {f g : Filter} {held others : Multiset Item} (b : f.Backs held)
    (b' : g.Backs others) (agrees : f.agrees g = true) : ∃ o, f.absorb g = .ok (.ok o) ∧
      o.state.seed = f.seed ∧ o.state.Backs (if o.done then held + others else held) := by
  obtain ⟨seed, scheme, shape⟩ := agrees_iff.mp agrees
  obtain ⟨o, -, run, s₁, same, unites⟩ := exists_absorb b.sound b'.sound agrees
  refine ⟨_, run, rfl, Backs.with_nest s₁ same ?_⟩
  intro v c hv hc
  have mine := b.enough v c hv hc
  show Multiset.countP _ (if o.done then held + others else held) ≤ _
  cases done : o.done with
  | true =>
    have theirs := b'.enough v c hv (shape ▸ hc)
    simp only [inClass_eq_of scheme seed shape] at theirs
    rw [if_pos rfl, Multiset.countP_add, (unites.complete done).1 v c hv hc]
    unfold rules at theirs
    rw [scheme] at theirs
    exact Nat.add_le_add mine theirs
  | false =>
    -- what was placed before the merge stopped only adds to the classes
    obtain ⟨_, taken⟩ := unites.takesIn_of_stopped done
    rw [if_neg (by decide), taken.copies_eq v c hv hc]
    exact Nat.le_trans mine (Nat.le_add_right _ _)

theorem Sound.clear {f : Filter} (s : f.Sound) : f.clear.Sound :=
  ⟨s.wellFormed.clear, s.accepts⟩

/-- A filter with the scheme, the seed and the table of another one backs the same objects, however
its victims are picked. -/
theorem Backs.of_table_eq {f g : Filter} {held : Multiset Item} (b : f.Backs held)
    (scheme : g.scheme = f.scheme) (seed : g.seed = f.seed) (table : g.table = f.table) :
    g.Backs held := by
  have same : g.nest.table = f.nest.table := table
  refine ⟨⟨same ▸ b.sound.wellFormed, ?_⟩, ?_⟩
  · have accepts := b.sound.accepts
    unfold rules Nest.bucketCount at accepts ⊢
    rw [scheme, same]
    exact accepts
  · intro v c hv hc
    simp only [inClass_eq_of scheme seed (congrArg Table.shape table)]
    have enough := b.enough v c hv (table ▸ hc)
    unfold rules at enough ⊢
    rw [scheme, table]
    exact enough

end Cuckoo.Filter

theorem Cuckoo.Blueprint.sound_of_build {b : Blueprint} {f : Filter} (run : b.build = .ok f) :
    f.Sound := by
  unfold build at run
  obtain ⟨shape, -, run⟩ := Runs.bind_eq_ok_iff.mp run
  obtain ⟨_, accepts, run⟩ := Runs.bind_eq_ok_iff.mp run
  obtain ⟨table, made, run⟩ := Runs.bind_eq_ok_iff.mp run
  cases run
  refine ⟨Table.wellFormed_empty made, ?_⟩
  obtain ⟨_, -, made⟩ := Runs.bind_eq_ok_iff.mp made
  cases made
  exact accepts

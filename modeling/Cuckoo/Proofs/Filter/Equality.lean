import Cuckoo.Proofs.Filter.Backing
import Cuckoo.Proofs.Nest.Alike

/-!
# Equal filters

Filters that test equal may hold their fingerprints in different slots, may have different bits behind
the last cell, and may make room in different ways. None of this is seen as long as no room has to be
made: **equal filters give the same answers and stay equal**, over any run of lookups, deletions,
emptyings and insertions that find an empty cell.
-/

set_option autoImplicit false

namespace Cuckoo.Filter

open Hash Runs

/-- What two filters have in common that test equal. -/
structure Alike (f g : Filter) : Prop where
  seed : g.seed = f.seed
  scheme : g.scheme = f.scheme
  nest : Nest.Alike f.rules g.rules f.nest g.nest

/-- One of the two buckets of an object has an empty cell. -/
def HasRoom (f : Filter) (x : Item) : Prop := f.nest.HasRoom f.rules (x.key f.seed)

/-! ## What can be asked of a filter -/

inductive Access where
  | insert (x : Item)
  | contains (x : Item)
  | erase (x : Item)
  | clear

/-- The answer to an access, and the filter after it. -/
def access (f : Filter) : Access → Checked (Bool × Filter)
  | .insert x => do
    let o ← f.insert x
    pure (o.done, o.state)
  | .contains x => do
    let found ← f.contains x
    pure (found, f)
  | .erase x => f.erase x
  | .clear => pure (true, f.clear)

def accessAll (f : Filter) : List Access → Checked (List Bool × Filter)
  | [] => pure ([], f)
  | a :: as => do
    let (answer, f) ← f.access a
    let (answers, f) ← f.accessAll as
    pure (answer :: answers, f)

/-- Every insertion of a run finds an empty cell when it is its turn. -/
def Roomy (f : Filter) : List Access → Prop
  | [] => True
  | a :: as => (∀ x, a = .insert x → f.HasRoom x) ∧
    ∀ answer f', f.access a = .ok (answer, f') → f'.Roomy as

/-- **Neither of two filters can be told from the other**, as long as no room has to be made. -/
structure Interchangeable (f g : Filter) : Prop where
  size_eq : g.size = f.size
  contains : ∀ x, ∃ found, f.contains x = .ok found ∧ g.contains x = .ok found
  erase : ∀ x, ∃ found f' g', f.erase x = .ok (found, f') ∧ g.erase x = .ok (found, g') ∧
    (f' == g') = true
  hasRoom_iff : ∀ x, g.HasRoom x ↔ f.HasRoom x
  insert : ∀ x, f.HasRoom x → ∃ o o', f.insert x = .ok o ∧ g.insert x = .ok o' ∧
    o.done = true ∧ o'.done = true ∧ (o.state == o'.state) = true
  clear : (f.clear == g.clear) = true
  run : ∀ accesses, f.Roomy accesses → ∃ answers f' g',
    f.accessAll accesses = .ok (answers, f') ∧ g.accessAll accesses = .ok (answers, g') ∧
      (f' == g') = true

/-! ## What equality decides -/

theorem beq_iff_alike {f g : Filter} (s : f.Sound) (s' : g.Sound) :
    (f == g) = true ↔ f.Alike g := by
  show (f.seed == g.seed && f.scheme == g.scheme && f.nest.table == g.nest.table) = true ↔ _
  rw [Bool.and_eq_true, Bool.and_eq_true, beq_iff_eq, beq_iff_eq,
    Table.beq_iff_alike s.wellFormed s'.wellFormed]
  constructor
  · rintro ⟨⟨seed, scheme⟩, tables⟩
    exact ⟨seed.symm, scheme.symm, congrArg Scheme.placement scheme.symm, tables, s, s'⟩
  · intro a
    exact ⟨⟨a.seed.symm, a.scheme.symm⟩, a.nest.table⟩

section

variable {f g : Filter} (a : f.Alike g)
include a

theorem Alike.beq : (f == g) = true := (beq_iff_alike a.nest.left a.nest.right).mpr a

theorem Alike.with_nests {nest nest' : Nest Draw.Keystream}
    (nests : Nest.Alike f.rules g.rules nest nest') :
    ({ f with nest } : Filter).Alike { g with nest := nest' } :=
  ⟨a.seed, a.scheme, nests⟩

/-! ## One access -/

theorem Alike.size_eq : g.size = f.size :=
  a.nest.table.count_eq a.nest.left.wellFormed a.nest.right.wellFormed

theorem Alike.contains_eq (x : Item) : g.contains x = f.contains x := by
  unfold Filter.contains
  rw [a.seed]
  exact a.nest.contains_eq f.rules_lawful _

theorem Alike.exists_erase (x : Item) : ∃ found f' g', f.erase x = .ok (found, f') ∧
    g.erase x = .ok (found, g') ∧ f'.Alike g' := by
  obtain ⟨found, m, m', run, run', nests⟩ := a.nest.exists_erase f.rules_lawful (x.key f.seed)
  refine ⟨found, _, _, ?_, ?_, a.with_nests nests⟩
  · unfold Filter.erase
    rw [run]
    rfl
  · unfold Filter.erase
    rw [a.seed, run']
    rfl

theorem Alike.hasRoom_iff (x : Item) : g.HasRoom x ↔ f.HasRoom x := by
  unfold HasRoom
  rw [a.seed]
  exact a.nest.hasRoom_iff f.rules_lawful _

theorem Alike.exists_insert {x : Item} (room : f.HasRoom x) : ∃ o o', f.insert x = .ok o ∧
    g.insert x = .ok o' ∧ o.done = true ∧ o'.done = true ∧ o.state.Alike o'.state := by
  obtain ⟨m, m', run, run', nests⟩ := a.nest.exists_insert f.rules_lawful room
  refine ⟨⟨true, { f with nest := m }, []⟩, ⟨true, { g with nest := m' }, []⟩, ?_, ?_, rfl, rfl,
    a.with_nests nests⟩
  · unfold Filter.insert
    rw [run]
    rfl
  · unfold Filter.insert
    rw [a.seed, run']
    rfl

theorem Alike.clear : f.clear.Alike g.clear := a.with_nests a.nest.clear

theorem Alike.exists_access {access : Access} (room : ∀ x, access = .insert x → f.HasRoom x) :
    ∃ answer f' g', f.access access = .ok (answer, f') ∧ g.access access = .ok (answer, g') ∧
      f'.Alike g' := by
  cases access with
  | insert x =>
    obtain ⟨o, o', run, run', done, done', after⟩ := a.exists_insert (room x rfl)
    refine ⟨true, o.state, o'.state, ?_, ?_, after⟩
    · rw [Filter.access, run, ← done]
      rfl
    · rw [Filter.access, run', ← done']
      rfl
  | contains x =>
    obtain ⟨found, run⟩ := Sound.exists_contains a.nest.left x
    refine ⟨found, f, g, ?_, ?_, a⟩
    · rw [Filter.access, run]
      rfl
    · rw [Filter.access, a.contains_eq, run]
      rfl
  | erase x => exact a.exists_erase x
  | clear => exact ⟨true, _, _, rfl, rfl, a.clear⟩

end

/-! ## Any run -/

theorem Alike.exists_accessAll : ∀ (accesses : List Access) {f g : Filter}, f.Alike g →
    f.Roomy accesses → ∃ answers f' g', f.accessAll accesses = .ok (answers, f') ∧
      g.accessAll accesses = .ok (answers, g') ∧ f'.Alike g' := by
  -- on the accesses, for all pairs of filters: each access leaves another pair
  intro accesses
  induction accesses with
  | nil =>
    intro f g a _
    exact ⟨[], f, g, rfl, rfl, a⟩
  | cons access accesses ih =>
    intro f g a roomy
    obtain ⟨room, later⟩ := roomy
    obtain ⟨answer, f₁, g₁, run, run', a₁⟩ := a.exists_access room
    obtain ⟨answers, f₂, g₂, rest, rest', a₂⟩ := ih a₁ (later answer f₁ run)
    refine ⟨answer :: answers, f₂, g₂, ?_, ?_, a₂⟩
    · rw [accessAll, run, ok_bind]
      show (f₁.accessAll accesses >>= _) = _
      rw [rest]
      rfl
    · rw [accessAll, run', ok_bind]
      show (g₁.accessAll accesses >>= _) = _
      rw [rest']
      rfl

theorem Alike.interchangeable {f g : Filter} (a : f.Alike g) : f.Interchangeable g where
  size_eq := a.size_eq
  contains x := by
    obtain ⟨found, run⟩ := Sound.exists_contains a.nest.left x
    exact ⟨found, run, (a.contains_eq x).trans run⟩
  erase x := by
    obtain ⟨found, f', g', run, run', after⟩ := a.exists_erase x
    exact ⟨found, f', g', run, run', after.beq⟩
  hasRoom_iff := a.hasRoom_iff
  insert x room := by
    obtain ⟨o, o', run, run', done, done', after⟩ := a.exists_insert room
    exact ⟨o, o', run, run', done, done', after.beq⟩
  clear := a.clear.beq
  run accesses roomy := by
    obtain ⟨answers, f', g', run, run', after⟩ := a.exists_accessAll accesses roomy
    exact ⟨answers, f', g', run, run', after.beq⟩

end Cuckoo.Filter

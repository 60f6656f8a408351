import Cuckoo.Proofs.Nest.Counting
import Cuckoo.Proofs.Table.Alike

/-!
# Alike nests

Two nests are alike if their tables are, and the same placement rule works for both; their generators
and their budgets may differ. Lookups and deletions never ask a generator, and neither does an insertion
that finds an empty cell: all of them **search the home bucket and then the alternate bucket, and
overwrite the cell found** (`Sound.erase_eq`, `Sound.insert_eq_of_room`). So they answer the same in alike
nests and leave alike nests.
-/

set_option autoImplicit false

namespace Cuckoo.Nest

open Hash Runs

variable {σ : Type}

/-- One of the two buckets of a key has an empty cell. -/
def HasRoom (r : Rules σ) (n : Nest σ) (key : Key) : Prop := ∃ fingerprint home,
  n.locate r key = .ok (fingerprint, home) ∧
    ∃ place ∈ [home, n.alternate r home fingerprint], emptyCell ∈ n.table.row place

/-- Two nests whose tables differ in the order of their buckets only, under rules with the same
placement. -/
structure Alike (r r' : Rules σ) (n n' : Nest σ) : Prop where
  placement : r'.placement = r.placement
  table : n.table.Alike n'.table
  left : n.Sound r
  right : n'.Sound r'

/-! ## Searching two buckets -/

section

variable {r : Rules σ} {n : Nest σ} (hP : r.placement.Lawful) (s : n.Sound r)
  {key : Key} {fingerprint : UInt64} {home : Nat}
  (located : n.locate r key = .ok (fingerprint, home))
include hP s located

theorem Sound.candidates_lt : ∀ place ∈ [home, n.alternate r home fingerprint],
    place < n.table.shape.buckets := by
  obtain ⟨inside, -⟩ := s.located hP located
  intro place mem
  rcases List.mem_cons.mp mem with rfl | mem
  · exact inside
  · exact List.mem_singleton.mp mem ▸ s.partner_lt hP fingerprint inside

theorem Sound.erase_eq : n.erase r key = .ok
    (match n.table.replaceIn emptyCell fingerprint [home, n.alternate r home fingerprint] with
    | some table => (true, { n with table })
    | none => (false, n)) := by
  obtain ⟨inside, -, fits⟩ := s.located hP located
  have other : n.alternate r home fingerprint < n.table.shape.buckets :=
    s.partner_lt hP fingerprint inside
  unfold erase Table.replaceIn
  rw [located, ok_bind, List.findSome?_cons, List.findSome?_singleton]
  dsimp only
  rw [s.wellFormed.replaceFirst_eq inside fits, ok_bind]
  cases n.table.slotOf? fingerprint home with
  | some slot => rfl
  | none =>
    dsimp only [Option.map_none]
    rw [s.wellFormed.replaceFirst_eq other fits, ok_bind]
    cases n.table.slotOf? fingerprint (n.alternate r home fingerprint) <;> rfl

theorem Sound.insert_eq_of_room {table : Table} (room : n.table.replaceIn fingerprint emptyCell
      [home, n.alternate r home fingerprint] = some table) :
    n.insert r key = .ok ⟨true, { n with table }, []⟩ := by
  obtain ⟨inside, used, fits⟩ := s.located hP located
  have other : n.alternate r home fingerprint < n.table.shape.buckets :=
    s.partner_lt hP fingerprint inside
  unfold Table.replaceIn at room
  rw [List.findSome?_cons, List.findSome?_singleton] at room
  unfold insert
  rw [located, ok_bind]
  dsimp only
  rw [s.wellFormed.put_eq inside used fits, ok_bind]
  cases here : n.table.slotOf? emptyCell home with
  | some slot =>
    rw [here] at room
    cases room
    rfl
  | none =>
    rw [here] at room
    dsimp only [Option.map_none] at room ⊢
    rw [s.wellFormed.put_eq other used fits, ok_bind, room]
    rfl

end

/-! ## The same search in both -/

section

variable {r r' : Rules σ} {n n' : Nest σ} (a : Alike r r' n n')
include a

theorem Alike.locate_eq (key : Key) : n'.locate r' key = n.locate r key :=
  locate_eq_of a.placement a.table.shape_eq key

theorem Alike.alternate_eq (bucket : Nat) (fingerprint : UInt64) :
    n'.alternate r' bucket fingerprint = n.alternate r bucket fingerprint := by
  unfold alternate bucketCount
  rw [a.table.shape_eq, a.placement]

/-- A change of both tables keeps what does not depend on their cells. -/
theorem Alike.with_tables {m m' : Nest σ} (tables : m.table.Alike m'.table)
    (h : m.table.WellFormed) (h' : m'.table.WellFormed)
    (same : m.table.shape = n.table.shape) : Alike r r' m m' :=
  ⟨a.placement, tables, a.left.of_shape_eq h same,
    a.right.of_shape_eq h' (tables.shape_eq.trans (same.trans a.table.shape_eq.symm))⟩

theorem Alike.clear : Alike r r' n.clear n'.clear :=
  a.with_tables (a.table.clear a.left.wellFormed a.right.wellFormed) a.left.wellFormed.clear
    a.right.wellFormed.clear rfl

variable (hP : r.placement.Lawful)
include hP

theorem Alike.contains_eq (key : Key) : n'.contains r' key = n.contains r key := by
  obtain ⟨fingerprint, home, located, inside, -⟩ := a.left.exists_locate hP key
  have located' := (a.locate_eq key).trans located
  have other := a.left.partner_lt hP fingerprint inside
  rw [a.left.contains_eq hP located, a.right.contains_eq (a.placement ▸ hP) located']
  congr 1
  rw [decide_eq_decide, copies_pos_iff, copies_pos_iff, a.placement, a.table.shape_eq,
    a.table.mem_row_iff inside, a.table.mem_row_iff other]

/-- The search for a value in the buckets of a key ends alike, and so do the tables. -/
theorem Alike.replaceIn {key : Key} {fingerprint : UInt64} {home : Nat}
    (located : n.locate r key = .ok (fingerprint, home)) (new old : UInt64) :
    (n.table.replaceIn new old [home, n.alternate r home fingerprint] = none ∧
      n'.table.replaceIn new old [home, n.alternate r home fingerprint] = none) ∨
    ∃ t t', n.table.replaceIn new old [home, n.alternate r home fingerprint] = some t ∧
      n'.table.replaceIn new old [home, n.alternate r home fingerprint] = some t' ∧
      Alike r r' { n with table := t } { n' with table := t' } := by
  have inside := a.left.candidates_lt hP located
  refine (a.table.replaceIn a.left.wellFormed a.right.wellFormed new old inside).imp_right ?_
  rintro ⟨t, t', found, found', tables⟩
  obtain ⟨h, same⟩ := a.left.wellFormed.replaceIn inside found
  obtain ⟨h', -⟩ := a.right.wellFormed.replaceIn (a.table.shape_eq.symm ▸ inside) found'
  exact ⟨t, t', found, found', a.with_tables tables h h' same⟩

theorem Alike.exists_erase (key : Key) : ∃ found m m', n.erase r key = .ok (found, m) ∧
    n'.erase r' key = .ok (found, m') ∧ Alike r r' m m' := by
  obtain ⟨fingerprint, home, located, -⟩ := a.left.exists_locate hP key
  have mine := a.left.erase_eq hP located
  have theirs := a.right.erase_eq (a.placement ▸ hP) ((a.locate_eq key).trans located)
  rw [a.alternate_eq] at theirs
  obtain ⟨missing, missing'⟩ | ⟨t, t', found, found', after⟩ :=
    a.replaceIn hP located emptyCell fingerprint
  · rw [missing] at mine
    rw [missing'] at theirs
    exact ⟨false, n, n', mine, theirs, a⟩
  · rw [found] at mine
    rw [found'] at theirs
    exact ⟨true, _, _, mine, theirs, after⟩

theorem Alike.hasRoom_iff (key : Key) : n'.HasRoom r' key ↔ n.HasRoom r key := by
  unfold HasRoom
  simp only [a.locate_eq, a.alternate_eq]
  refine exists_congr fun fingerprint => exists_congr fun home => and_congr_right fun located => ?_
  have inside := a.left.candidates_lt hP located
  refine exists_congr fun place => and_congr_right fun mem => ?_
  exact a.table.mem_row_iff (inside place mem) emptyCell

theorem Alike.exists_insert {key : Key} (room : n.HasRoom r key) :
    ∃ m m', n.insert r key = .ok ⟨true, m, []⟩ ∧ n'.insert r' key = .ok ⟨true, m', []⟩ ∧
      Alike r r' m m' := by
  obtain ⟨fingerprint, home, located, free⟩ := room
  obtain ⟨missing, -⟩ | ⟨t, t', found, found', after⟩ :=
    a.replaceIn hP located fingerprint emptyCell
  · have some_cell : (n.table.replaceIn fingerprint emptyCell _).isSome = true :=
      Table.isSome_replaceIn_iff.mpr free
    rw [missing] at some_cell
    cases some_cell
  · rw [← a.alternate_eq] at found'
    exact ⟨_, _, a.left.insert_eq_of_room hP located found,
      a.right.insert_eq_of_room (a.placement ▸ hP) ((a.locate_eq key).trans located) found', after⟩

end

end Cuckoo.Nest

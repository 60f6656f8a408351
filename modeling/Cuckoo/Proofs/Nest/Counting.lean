import Cuckoo.Proofs.Nest.Classes
import Cuckoo.Proofs.Placement.Lawful

/-!
# A nest counts

Seen from outside a nest is a counter for each class of fingerprints, and nothing else: `contains`
asks whether the counter is positive, `erase` lowers it if it is, and an `insert` that succeeds raises
it. How many fingerprints of other classes were moved on the way cannot be seen.

The three operations are taken one at a time (`contains_eq`, `Erases`, `Stores`); a run of them is
then an induction whose invariant is the balance of one counter.
-/

set_option autoImplicit false

namespace Cuckoo.Nest

open Hash Runs

variable {σ : Type}

/-- The table is well-formed and the placement rule works for its bucket count. Every nest that is
started satisfies this, and every operation keeps it. -/
structure Sound (r : Rules σ) (n : Nest σ) : Prop where
  wellFormed : n.table.WellFormed
  accepts : r.placement.Accepts n.bucketCount

theorem Sound.of_shape_eq {r : Rules σ} {n n' : Nest σ} (s : n.Sound r)
    (h : n'.table.WellFormed) (same : n'.table.shape = n.table.shape) : n'.Sound r := by
  refine ⟨h, ?_⟩
  rw [bucketCount, same]
  exact s.accepts

/-- Where a key belongs is a matter of the placement rule and of the dimensions. -/
theorem locate_eq_of {τ : Type} {r : Rules σ} {r' : Rules τ} {n : Nest σ} {n' : Nest τ}
    (placement : r'.placement = r.placement) (same : n'.table.shape = n.table.shape) (key : Key) :
    n'.locate r' key = n.locate r key := by
  unfold locate bucketCount
  rw [same, placement]

theorem locate_of_shape_eq {n n' : Nest σ} (r : Rules σ) (same : n'.table.shape = n.table.shape)
    (key : Key) : n'.locate r key = n.locate r key :=
  locate_eq_of rfl same key

/-- Does a key belong to the class of a fingerprint in a bucket? -/
def inClass (r : Rules σ) (n : Nest σ) (fingerprint : UInt64) (bucket : Nat) (key : Key) : Bool :=
  match n.locate r key with
  | .ok (own, home) => r.placement.belongs n.table.shape fingerprint bucket (home, own)
  | .error _ => false

theorem inClass_eq {r : Rules σ} {n : Nest σ} {key : Key} {fingerprint : UInt64} {home : Nat}
    (located : n.locate r key = .ok (fingerprint, home)) (v : UInt64) (c : Nat) :
    n.inClass r v c key = r.placement.belongs n.table.shape v c (home, fingerprint) := by
  unfold inClass
  rw [located]

theorem inClass_self {r : Rules σ} {n : Nest σ} {key : Key} {fingerprint : UInt64} {home : Nat}
    (located : n.locate r key = .ok (fingerprint, home)) :
    n.inClass r fingerprint home key = true := by
  rw [inClass_eq located]
  simp [Placement.belongs]

/-! ## What a key is to a sound nest -/

section

variable {r : Rules σ} {n : Nest σ} (hP : r.placement.Lawful) (s : n.Sound r)
include hP s

theorem Sound.alternatesBelow : r.placement.AlternatesBelow n.bucketCount :=
  hP.alternatesBelow s.accepts

theorem Sound.partner_lt (fingerprint : UInt64) {bucket : Nat} (hb : bucket < n.table.shape.buckets) :
    r.placement.partner n.table.shape fingerprint bucket < n.table.shape.buckets :=
  (s.alternatesBelow hP).partner_lt s.wellFormed fingerprint hb

theorem Sound.blind (fingerprint : UInt64) {bucket : Nat} (hb : bucket < n.table.shape.buckets) :
    r.placement.Blind n.table.shape (r.placement.belongs n.table.shape fingerprint bucket) :=
  hP.blind_belongs s.wellFormed s.accepts fingerprint hb

theorem Sound.countP_belongs {fingerprint : UInt64} (used : fingerprint ≠ emptyCell) {bucket : Nat}
    (hb : bucket < n.table.shape.buckets) :
    n.table.entries.countP (r.placement.belongs n.table.shape fingerprint bucket) =
      n.table.copies r.placement fingerprint bucket :=
  Table.countP_belongs used hb (s.partner_lt hP fingerprint hb)

theorem Sound.exists_locate (key : Key) : ∃ fingerprint home,
    n.locate r key = .ok (fingerprint, home) ∧ home < n.table.shape.buckets ∧
      fingerprint ≠ emptyCell ∧ n.table.fits fingerprint = true := by
  obtain ⟨fingerprint, located, used, fits⟩ := Nest.exists_locate s.wellFormed r key
  refine ⟨fingerprint, _, located, ?_, used, fits⟩
  have below := hP.home_lt key.index s.accepts
  rwa [UInt64.lt_iff_toNat_lt, bucketCount, Placement.toNat_bucketCount s.wellFormed] at below

theorem Sound.located {key : Key} {fingerprint : UInt64} {home : Nat}
    (located : n.locate r key = .ok (fingerprint, home)) : home < n.table.shape.buckets ∧
      fingerprint ≠ emptyCell ∧ n.table.fits fingerprint = true := by
  obtain ⟨fp, b, located', facts⟩ := s.exists_locate hP key
  obtain ⟨rfl, rfl⟩ := Prod.mk.inj (Except.ok.inj (located.symm.trans located'))
  exact facts

end

/-! ## Looking up -/

theorem copies_pos_iff {t : Table} {P : Placement} {fingerprint : UInt64} {bucket : Nat} :
    0 < t.copies P fingerprint bucket ↔
      fingerprint ∈ t.row bucket ∨ fingerprint ∈ t.row (P.partner t.shape fingerprint bucket) := by
  unfold Table.copies
  rw [← List.count_pos_iff, ← List.count_pos_iff]
  by_cases same : P.partner t.shape fingerprint bucket = bucket
  · simp [same]
  · simp only [same, if_false]
    omega

section

variable {r : Rules σ} {n : Nest σ} (hP : r.placement.Lawful) (s : n.Sound r)
  {key : Key} {fingerprint : UInt64} {home : Nat}
  (located : n.locate r key = .ok (fingerprint, home))
include hP s located

theorem Sound.contains_eq : n.contains r key =
    .ok (decide (0 < n.table.copies r.placement fingerprint home)) := by
  obtain ⟨inside, used, fits⟩ := s.located hP located
  have other := s.partner_lt hP fingerprint inside
  unfold contains
  rw [located, ok_bind]
  dsimp only
  rw [Table.holds_eq inside used fits, ok_bind]
  by_cases here : fingerprint ∈ n.table.row home
  · rw [decide_eq_true here, decide_eq_true (copies_pos_iff.mpr (Or.inl here))]
    rfl
  · rw [decide_eq_false here]
    show n.table.holds fingerprint (n.alternate r home fingerprint) = _
    rw [alternate_eq, Table.holds_eq other used fits]
    congr 1
    rw [decide_eq_decide, copies_pos_iff]
    exact ⟨Or.inr, fun held => held.resolve_left here⟩

end

/-! ## Deleting -/

/-- How deleting a fingerprint from one of several buckets can end. -/
inductive Erases (n : Nest σ) (fingerprint : UInt64) (tried : List Nat) : Bool → Nest σ → Prop
  | found {place slot : Nat} (mem : place ∈ tried)
      (held : n.table.slotOf? fingerprint place = some slot) :
    Erases n fingerprint tried true { n with table := n.table.store place slot emptyCell }
  | missing (absent : ∀ place ∈ tried, n.table.slotOf? fingerprint place = none) :
    Erases n fingerprint tried false n

section

variable {r : Rules σ} {n : Nest σ} (hP : r.placement.Lawful) (s : n.Sound r)
  {key : Key} {fingerprint : UInt64} {home : Nat}
  (located : n.locate r key = .ok (fingerprint, home))
include hP s located

theorem Sound.exists_erase : ∃ found n', n.erase r key = .ok (found, n') ∧
    Erases n fingerprint [home, n.alternate r home fingerprint] found n' := by
  obtain ⟨inside, -, fits⟩ := s.located hP located
  have other : n.alternate r home fingerprint < n.table.shape.buckets :=
    s.partner_lt hP fingerprint inside
  unfold erase
  rw [located, ok_bind]
  dsimp only
  rw [s.wellFormed.replaceFirst_eq inside fits, ok_bind]
  cases held : n.table.slotOf? fingerprint home with
  | some slot => exact ⟨_, _, rfl, .found List.mem_cons_self held⟩
  | none =>
    dsimp only [Option.map_none]
    rw [s.wellFormed.replaceFirst_eq other fits, ok_bind]
    cases held' : n.table.slotOf? fingerprint (n.alternate r home fingerprint) with
    | some slot =>
      exact ⟨_, _, rfl, .found (List.mem_cons_of_mem _ (List.mem_singleton.mpr rfl)) held'⟩
    | none =>
      refine ⟨_, _, rfl, .missing ?_⟩
      intro place hplace
      rcases List.mem_cons.mp hplace with rfl | hplace
      · exact held
      · rw [List.mem_singleton.mp hplace, held']

end

section

variable {r : Rules σ} {n n' : Nest σ} (hP : r.placement.Lawful) (s : n.Sound r)
  {fingerprint : UInt64} {home : Nat} {found : Bool}
  (erases : Erases n fingerprint [home, n.alternate r home fingerprint] found n')
include erases

theorem Erases.found_iff : found = true ↔ 0 < n.table.copies r.placement fingerprint home := by
  rw [copies_pos_iff, ← alternate_eq]
  cases erases with
  | found mem held =>
    have here := (Table.isSome_slotOf?_iff (t := n.table)).mp (by rw [held]; rfl)
    refine ⟨fun _ => ?_, fun _ => rfl⟩
    rcases List.mem_cons.mp mem with rfl | mem
    · exact Or.inl here
    · exact Or.inr (List.mem_singleton.mp mem ▸ here)
  | missing absent =>
    refine ⟨fun h => (by cases h), fun h => ?_⟩
    have away : ∀ place ∈ [home, n.alternate r home fingerprint],
        fingerprint ∉ n.table.row place :=
      fun place mem => Table.slotOf?_eq_none_iff.mp (absent place mem)
    rcases h with h | h
    · exact absurd h (away _ List.mem_cons_self)
    · exact absurd h (away _ (List.mem_cons_of_mem _ (List.mem_singleton.mpr rfl)))

include hP s

theorem Erases.inside (inside : home < n.table.shape.buckets) {place : Nat}
    (mem : place ∈ [home, n.alternate r home fingerprint]) : place < n.table.shape.buckets := by
  rcases List.mem_cons.mp mem with rfl | mem
  · exact inside
  · exact List.mem_singleton.mp mem ▸ s.partner_lt hP fingerprint inside

theorem Erases.sound (inside : home < n.table.shape.buckets) :
    n'.Sound r ∧ n'.table.shape = n.table.shape := by
  cases erases with
  | found mem held =>
    have room := Erases.inside hP s (.found mem held) inside mem
    have h' := s.wellFormed.store room (Table.slotOf?_eq_some held).1 emptyCell
    exact ⟨s.of_shape_eq h' rfl, rfl⟩
  | missing => exact ⟨s, rfl⟩

theorem Erases.countP_eq (inside : home < n.table.shape.buckets) (used : fingerprint ≠ emptyCell)
    {p : Nat × UInt64 → Bool} (blind : r.placement.Blind n.table.shape p) :
    n'.table.entries.countP p + (if found && p (home, fingerprint) then 1 else 0) =
      n.table.entries.countP p := by
  cases erases with
  | found mem held =>
    rename_i place slot
    obtain ⟨hs, here⟩ := Table.slotOf?_eq_some held
    have room := Erases.inside hP s (.found mem held) inside mem
    have own : p (place, fingerprint) = p (home, fingerprint) := by
      rcases List.mem_cons.mp mem with rfl | mem
      · rfl
      · rw [List.mem_singleton.mp mem]
        exact blind _ _ inside
    have wipe := s.wellFormed.entries_wipe room hs here used
    rw [← wipe.countP_eq, List.countP_cons, own]
    rfl
  | missing => rfl

end

/-! ## One operation -/

section

variable {r : Rules σ} {n : Nest σ} (hP : r.placement.Lawful) (s : n.Sound r)
include hP s

/-- An insertion ends, and raises the count of the class of its key by one if it succeeds. -/
theorem Sound.insert_copies (hpick : r.PicksInRange) (key : Key) :
    ∃ o, n.insert r key = .ok o ∧ o.state.Sound r ∧ o.state.table.shape = n.table.shape ∧
      ∀ v c, v ≠ emptyCell → c < n.table.shape.buckets →
        o.state.table.copies r.placement v c =
          n.table.copies r.placement v c + if o.done && n.inClass r v c key then 1 else 0 := by
  obtain ⟨fingerprint, home, located, inside, used, fits⟩ := s.exists_locate hP key
  have below := s.alternatesBelow hP
  obtain ⟨o, run, stores⟩ := exists_insert s.wellFormed below hpick located inside
  have tried : ∀ place ∈ [home, n.alternate r home fingerprint], place < n.table.shape.buckets := by
    intro place mem
    rcases List.mem_cons.mp mem with rfl | mem
    · exact inside
    · exact List.mem_singleton.mp mem ▸ s.partner_lt hP fingerprint inside
  obtain ⟨h', same⟩ := stores.wellFormed s.wellFormed below tried used fits List.mem_cons_self
  have s' := s.of_shape_eq h' same
  refine ⟨o, run, s', same, ?_⟩
  intro v c hv hc
  have counts := stores.countP_eq s.wellFormed below inside used fits List.mem_cons_self
    (by simp) (s.blind hP v hc)
  have after := s'.countP_belongs hP hv (same ▸ hc)
  rw [same] at after
  rw [inClass_eq located, ← s.countP_belongs hP hv hc, ← counts, ← after]

/-- A deletion ends, deletes something exactly when there is a copy, and then lowers the count of the
class of its key by one. -/
theorem Sound.erase_copies (key : Key) :
    ∃ found n', n.erase r key = .ok (found, n') ∧ n'.Sound r ∧ n'.table.shape = n.table.shape ∧
      (∀ fingerprint home, n.locate r key = .ok (fingerprint, home) →
        (found = true ↔ 0 < n.table.copies r.placement fingerprint home)) ∧
      ∀ v c, v ≠ emptyCell → c < n.table.shape.buckets →
        n'.table.copies r.placement v c + (if found && n.inClass r v c key then 1 else 0) =
          n.table.copies r.placement v c := by
  obtain ⟨fingerprint, home, located, inside, used, -⟩ := s.exists_locate hP key
  obtain ⟨found, n', run, erases⟩ := s.exists_erase hP located
  obtain ⟨s', same⟩ := erases.sound hP s inside
  refine ⟨found, n', run, s', same, ?_, ?_⟩
  · intro fp b located'
    obtain ⟨rfl, rfl⟩ := Prod.mk.inj (Except.ok.inj (located.symm.trans located'))
    exact erases.found_iff
  · intro v c hv hc
    have counts := erases.countP_eq hP s inside used (s.blind hP v hc)
    have after := s'.countP_belongs hP hv (same ▸ hc)
    rw [same] at after
    rw [inClass_eq located, ← s.countP_belongs hP hv hc, ← counts, ← after]

end

/-! ## Runs -/

/-- What can be asked of a nest, apart from emptying it and merging. -/
inductive Access where
  | insert (key : Key)
  | contains (key : Key)
  | erase (key : Key)

def access (r : Rules σ) (n : Nest σ) : Access → Checked (Bool × Nest σ)
  | .insert key => do
    let o ← n.insert r key
    pure (o.done, o.state)
  | .contains key => do
    let b ← n.contains r key
    pure (b, n)
  | .erase key => n.erase r key

def accessAll (r : Rules σ) (n : Nest σ) : List Access → Checked (List Bool × Nest σ)
  | [] => pure ([], n)
  | a :: as => do
    let (answer, n) ← n.access r a
    let (answers, n) ← n.accessAll r as
    pure (answer :: answers, n)

theorem accessAll_cons {r : Rules σ} {n n₁ n₂ : Nest σ} {a : Access} {answer : Bool}
    (first : n.access r a = .ok (answer, n₁)) {accesses : List Access} {answers : List Bool}
    (rest : n₁.accessAll r accesses = .ok (answers, n₂)) :
    n.accessAll r (a :: accesses) = .ok (answer :: answers, n₂) := by
  rw [accessAll, first, ok_bind]
  show (n₁.accessAll r accesses >>= _) = _
  rw [rest]
  rfl

def raises (r : Rules σ) (n : Nest σ) (v : UInt64) (c : Nat) : Access × Bool → Bool
  | (.insert key, done) => done && n.inClass r v c key
  | _ => false

def lowers (r : Rules σ) (n : Nest σ) (v : UInt64) (c : Nat) : Access × Bool → Bool
  | (.erase key, done) => done && n.inClass r v c key
  | _ => false

theorem inClass_eq_of {τ : Type} {r : Rules σ} {r' : Rules τ} {n : Nest σ} {n' : Nest τ}
    (placement : r'.placement = r.placement) (same : n'.table.shape = n.table.shape) (v : UInt64)
    (c : Nat) : n'.inClass r' v c = n.inClass r v c := by
  funext key
  unfold inClass
  rw [locate_eq_of placement same, placement, same]

theorem inClass_of_shape_eq {n n' : Nest σ} (r : Rules σ) (same : n'.table.shape = n.table.shape)
    (v : UInt64) (c : Nat) (key : Key) : n'.inClass r v c key = n.inClass r v c key :=
  congrFun (inClass_eq_of rfl same v c) key

theorem raises_of_shape_eq {n n' : Nest σ} (r : Rules σ) (same : n'.table.shape = n.table.shape)
    (v : UInt64) (c : Nat) : n'.raises r v c = n.raises r v c := by
  funext ⟨a, done⟩
  cases a <;> simp only [raises, inClass_of_shape_eq r same]

theorem lowers_of_shape_eq {n n' : Nest σ} (r : Rules σ) (same : n'.table.shape = n.table.shape)
    (v : UInt64) (c : Nat) : n'.lowers r v c = n.lowers r v c := by
  funext ⟨a, done⟩
  cases a <;> simp only [lowers, inClass_of_shape_eq r same]

section

variable {r : Rules σ} (hP : r.placement.Lawful) (hpick : r.PicksInRange)
include hP hpick

theorem Sound.access_copies {n : Nest σ} (s : n.Sound r) (a : Access) :
    ∃ answer n', n.access r a = .ok (answer, n') ∧ n'.Sound r ∧
      n'.table.shape = n.table.shape ∧
      ∀ v c, v ≠ emptyCell → c < n.table.shape.buckets →
        n'.table.copies r.placement v c + (if n.lowers r v c (a, answer) then 1 else 0) =
          n.table.copies r.placement v c + if n.raises r v c (a, answer) then 1 else 0 := by
  cases a with
  | insert key =>
    obtain ⟨o, run, s', same, counts⟩ := s.insert_copies hP hpick key
    refine ⟨o.done, o.state, ?_, s', same, counts⟩
    rw [access, run]
    rfl
  | contains key =>
    obtain ⟨fingerprint, home, located, -⟩ := s.exists_locate hP key
    refine ⟨decide (0 < n.table.copies r.placement fingerprint home), n, ?_, s, rfl,
      fun _ _ _ _ => rfl⟩
    rw [access, s.contains_eq hP located]
    rfl
  | erase key =>
    obtain ⟨found, n', run, s', same, -, counts⟩ := s.erase_copies hP key
    exact ⟨found, n', run, s', same, counts⟩

/-- The balance of every class over a run: what it ends with and what was deleted is what it began
with and what was inserted. -/
theorem Sound.accessAll_copies : ∀ (accesses : List Access) {n : Nest σ}, n.Sound r →
    ∃ answers n', n.accessAll r accesses = .ok (answers, n') ∧
      answers.length = accesses.length ∧ n'.Sound r ∧
      ∀ v c, v ≠ emptyCell → c < n.table.shape.buckets →
        n'.table.copies r.placement v c + (accesses.zip answers).countP (n.lowers r v c) =
          n.table.copies r.placement v c + (accesses.zip answers).countP (n.raises r v c) := by
  -- on the accesses, for all nests at once: each access leaves another one
  intro accesses
  induction accesses with
  | nil =>
    intro n s
    exact ⟨[], n, rfl, rfl, s, fun _ _ _ _ => rfl⟩
  | cons a accesses ih =>
    intro n s
    obtain ⟨answer, n₁, run₁, s₁, same, counts₁⟩ := s.access_copies hP hpick a
    obtain ⟨answers, n₂, run₂, lengths, s₂, counts₂⟩ := ih s₁
    refine ⟨answer :: answers, n₂, accessAll_cons run₁ run₂, by simp [lengths], s₂, ?_⟩
    intro v c hv hc
    -- what counts as a member of the class is the same before and after the first access
    have first := counts₁ v c hv hc
    have rest := counts₂ v c hv (same ▸ hc)
    rw [lowers_of_shape_eq r same, raises_of_shape_eq r same] at rest
    rw [List.zip_cons_cons, List.countP_cons, List.countP_cons]
    omega

end

/-- **A nest is exactly a counter for every class of fingerprints.** For a key with fingerprint
`fingerprint` and home bucket `home`, looking up asks whether its class has a copy, deleting takes one
away if there is one, and inserting adds one when it succeeds; all other classes, and all classes when
an operation fails, keep their counts. Over a run of such operations the count of every class is what
it was, plus the successful insertions, less the successful deletions. -/
theorem counts_classes (r : Rules σ) (hP : r.placement.Lawful) (hpick : r.PicksInRange)
    (n : Nest σ) (s : n.Sound r) :
    (∀ key fingerprint home, n.locate r key = .ok (fingerprint, home) →
      (∃ found, n.contains r key = .ok found ∧
        (found = true ↔ 0 < n.table.copies r.placement fingerprint home)) ∧
      (∃ found n', n.erase r key = .ok (found, n') ∧
        (found = true ↔ 0 < n.table.copies r.placement fingerprint home) ∧
        ∀ v c, v ≠ emptyCell → c < n.table.shape.buckets →
          n'.table.copies r.placement v c +
              (if found && r.placement.belongs n.table.shape v c (home, fingerprint) then 1 else 0) =
            n.table.copies r.placement v c) ∧
      ∃ o, n.insert r key = .ok o ∧
        ∀ v c, v ≠ emptyCell → c < n.table.shape.buckets →
          o.state.table.copies r.placement v c = n.table.copies r.placement v c +
            if o.done && r.placement.belongs n.table.shape v c (home, fingerprint) then 1 else 0) ∧
    (∀ key, ∃ fingerprint home, n.locate r key = .ok (fingerprint, home)) ∧
    ∀ accesses : List Access, ∃ answers n', n.accessAll r accesses = .ok (answers, n') ∧
      answers.length = accesses.length ∧
      ∀ v c, v ≠ emptyCell → c < n.table.shape.buckets →
        n'.table.copies r.placement v c + (accesses.zip answers).countP (n.lowers r v c) =
          n.table.copies r.placement v c + (accesses.zip answers).countP (n.raises r v c) := by
  refine ⟨?_, ?_, ?_⟩
  · intro key fingerprint home located
    refine ⟨⟨_, s.contains_eq hP located, decide_eq_true_iff⟩, ?_, ?_⟩
    · obtain ⟨found, n', run, -, -, answer, counts⟩ := s.erase_copies hP key
      simp only [inClass_eq located] at counts
      exact ⟨found, n', run, answer fingerprint home located, counts⟩
    · obtain ⟨o, run, -, -, counts⟩ := s.insert_copies hP hpick key
      simp only [inClass_eq located] at counts
      exact ⟨o, run, counts⟩
  · intro key
    obtain ⟨fingerprint, home, located, -⟩ := s.exists_locate hP key
    exact ⟨fingerprint, home, located⟩
  · intro accesses
    obtain ⟨answers, n', run, lengths, -, counts⟩ := s.accessAll_copies hP hpick accesses
    exact ⟨answers, n', run, lengths, counts⟩

/-- Placement by exclusive or, with victims from the slots in turn. -/
def byTurns : Rules Nat where
  placement := Placement.xor
  pick s slots := .ok (s % slots, s + 1)
  budget := 2

theorem byTurns_picksInRange : byTurns.PicksInRange :=
  fun s slots pos => ⟨s % slots, s + 1, rfl, Nat.mod_lt _ pos⟩

/-- A nest with two full buckets and two empty ones. -/
def stocked : Nest Nat := ⟨⟨⟨4, 2, 8⟩, #[0x0107000000000103], 4⟩, 0⟩

theorem stocked_sound : stocked.Sound byTurns := ⟨⟨rfl, rfl, rfl⟩, rfl⟩

/-- Two evictions make room for a second copy of a fingerprint, and the other classes keep theirs. -/
theorem stocked_counts : ∃ o, stocked.insert byTurns ⟨4, 7⟩ = .ok o ∧ o.events = [.relocated 2] ∧
    o.state.table.copies Placement.xor 7 0 = stocked.table.copies Placement.xor 7 0 + 1 ∧
    o.state.table.copies Placement.xor 1 0 = stocked.table.copies Placement.xor 1 0 := by
  obtain ⟨keys, -, -⟩ :=
    counts_classes byTurns Placement.xor_lawful byTurns_picksInRange stocked stocked_sound
  obtain ⟨-, -, o, run, counts⟩ := keys ⟨4, 7⟩ 7 0 rfl
  have ends : (stocked.insert byTurns ⟨4, 7⟩).map (fun o => (o.done, o.events)) =
      .ok (true, [.relocated 2]) := rfl
  rw [run] at ends
  obtain ⟨done, events⟩ := Prod.mk.inj (Except.ok.inj ends)
  have own := counts 7 0 (by decide) (by decide)
  have other := counts 1 0 (by decide) (by decide)
  rw [done] at own other
  exact ⟨o, run, events, own, other⟩

end Cuckoo.Nest

import Cuckoo.Proofs.Nest.Alike
import Mathlib.Data.Multiset.AddSub

/-!
# Deletions commute

A deletion takes one entry of two: the fingerprint in its home bucket if it is there, else the one in its
alternate bucket (`takeOne`). Two keys of one class may have their buckets the other way round, so that
each goes first for what the other one takes second. Still the order of the two does not matter: **if only
one of the two entries is there, both deletions would take it, and if both are there, both are gone in the
end**. Keys of different classes have no entry in common.

What is left after many deletions is therefore the same in every order, bucket by bucket. How many of
them found something is the difference of the sizes; whether all of them did is a matter of the classes,
each of which loses as many copies as it is asked for, while it has any.
-/

set_option autoImplicit false

namespace Cuckoo

open Hash Runs

/-! ## One of two -/

section

variable {α : Type} [DecidableEq α]

/-- What is left of a stock when one thing is taken from it: the first of two if it is there, else the
second, else nothing. -/
def takeOne (stock : Multiset α) (things : α × α) : Multiset α :=
  if things.1 ∈ stock then stock.erase things.1 else stock.erase things.2

/-- Two pairs are the same but for their order, or they have nothing in common. -/
def SameOrApart (p q : α × α) : Prop :=
  q = p ∨ q = p.swap ∨ (p.1 ≠ q.1 ∧ p.1 ≠ q.2) ∧ p.2 ≠ q.1 ∧ p.2 ≠ q.2

theorem takeOne_swap (stock : Multiset α) (a b : α) :
    takeOne (takeOne stock (a, b)) (b, a) = takeOne (takeOne stock (b, a)) (a, b) := by
  by_cases same : a = b
  · rw [same]
  have other : b ≠ a := Ne.symm same
  unfold takeOne
  by_cases ha : a ∈ stock <;> by_cases hb : b ∈ stock
  · -- both are there, and both go
    simp only [ha, hb, if_true, Multiset.mem_erase_of_ne same, Multiset.mem_erase_of_ne other]
    exact Multiset.erase_comm stock a b
  · -- one is there, which goes first, and then there may be another one of it
    have gone : (stock.erase a).erase b = stock.erase a :=
      Multiset.erase_of_notMem (mt Multiset.mem_of_mem_erase hb)
    simp only [ha, hb, if_true, if_false, Multiset.mem_erase_of_ne other, gone]
    split
    next => rfl
    next none => exact Multiset.erase_of_notMem none
  · have gone : (stock.erase b).erase a = stock.erase b :=
      Multiset.erase_of_notMem (mt Multiset.mem_of_mem_erase ha)
    simp only [ha, hb, if_true, if_false, Multiset.mem_erase_of_ne same, gone]
    split
    next => rfl
    next none => exact (Multiset.erase_of_notMem none).symm
  · simp only [Multiset.erase_of_notMem ha, Multiset.erase_of_notMem hb, ha, hb, if_false]

theorem takeOne_comm {p q : α × α} (related : SameOrApart p q) (stock : Multiset α) :
    takeOne (takeOne stock p) q = takeOne (takeOne stock q) p := by
  obtain ⟨a, b⟩ := p
  obtain ⟨c, d⟩ := q
  rcases related with same | swapped | ⟨⟨ac, ad⟩, bc, bd⟩
  · rw [same]
  · rw [swapped]
    exact takeOne_swap stock a b
  · -- what the one takes does not change whether the other one finds its first thing
    dsimp only at ac ad bc bd
    unfold takeOne
    by_cases ha : a ∈ stock <;> by_cases hc : c ∈ stock <;>
      simp only [ha, hc, if_true, if_false, Multiset.mem_erase_of_ne ac, Multiset.mem_erase_of_ne ad,
        Multiset.mem_erase_of_ne ac.symm, Multiset.mem_erase_of_ne bc.symm] <;>
      exact Multiset.erase_comm stock _ _

end

/-! ## Wiping out a fingerprint -/

/-- Wiping out a fingerprint takes one entry away. -/
theorem Table.WellFormed.entries_wipe_eq {t : Table} (h : t.WellFormed) {fingerprint : UInt64}
    {bucket slot : Nat} (hb : bucket < t.shape.buckets) (used : fingerprint ≠ emptyCell)
    (held : t.slotOf? fingerprint bucket = some slot) : (bucket, fingerprint) ∈ t.entries ∧
      ((t.store bucket slot emptyCell).entries : Multiset (Nat × UInt64)) =
        (t.entries : Multiset _).erase (bucket, fingerprint) := by
  obtain ⟨hs, here⟩ := slotOf?_eq_some held
  have wipe := h.entries_wipe hb hs here used
  refine ⟨wipe.mem_iff.mp List.mem_cons_self, ?_⟩
  rw [← Multiset.coe_eq_coe.mpr wipe, ← Multiset.cons_coe, Multiset.erase_cons_head]

theorem Table.notMem_entries {t : Table} {fingerprint : UInt64} {bucket : Nat}
    (absent : t.slotOf? fingerprint bucket = none) : (bucket, fingerprint) ∉ t.entries :=
  fun mem => slotOf?_eq_none_iff.mp absent (mem_entries_iff.mp mem).2.1

namespace Nest

variable {σ : Type}

/-! ## The two entries of a key -/

/-- What deleting a key leaves of the entries of a nest. -/
def withdraw (r : Rules σ) (n : Nest σ) (stock : Multiset (Nat × UInt64)) (key : Key) :
    Multiset (Nat × UInt64) :=
  match n.locate r key with
  | .ok (fingerprint, home) =>
    takeOne stock ((home, fingerprint), (n.alternate r home fingerprint, fingerprint))
  | .error _ => stock

theorem withdraw_eq {r : Rules σ} {n : Nest σ} {key : Key} {fingerprint : UInt64} {home : Nat}
    (located : n.locate r key = .ok (fingerprint, home)) (stock : Multiset (Nat × UInt64)) :
    n.withdraw r stock key =
      takeOne stock ((home, fingerprint), (n.alternate r home fingerprint, fingerprint)) := by
  unfold withdraw
  rw [located]

theorem withdraw_of_shape_eq {n n' : Nest σ} (r : Rules σ) (same : n'.table.shape = n.table.shape) :
    n'.withdraw r = n.withdraw r := by
  funext stock key
  unfold withdraw alternate bucketCount
  rw [locate_of_shape_eq r same, same]

section

variable {r : Rules σ} {n : Nest σ} (hP : r.placement.Lawful) (s : n.Sound r)
include hP s

/-- Two keys want the same two entries, in one order or the other, or they have none in common: a bucket
that both of a pair lead to is one of the pair. -/
theorem Sound.sameOrApart {v w : UInt64} {b c : Nat} (hb : b < n.table.shape.buckets)
    (hc : c < n.table.shape.buckets) :
    SameOrApart ((b, v), (n.alternate r b v, v)) ((c, w), (n.alternate r c w, w)) := by
  by_cases same : w = v
  swap
  · have apart : ∀ i j : Nat, (i, v) ≠ (j, w) := fun i j e => same (Prod.mk.inj e).2.symm
    exact Or.inr (Or.inr ⟨⟨apart _ _, apart _ _⟩, apart _ _, apart _ _⟩)
  subst same
  have back : ∀ {i : Nat}, i < n.table.shape.buckets →
      n.alternate r (n.alternate r i w) w = i := fun hi =>
    hP.partner_partner s.wellFormed s.accepts w hi
  by_cases here : c = b
  · exact Or.inl (by rw [here])
  by_cases there : c = n.alternate r b w
  · refine Or.inr (Or.inl ?_)
    rw [there, back hb]
    rfl
  · have apart : ∀ {i j : Nat}, i ≠ j → (i, w) ≠ (j, w) := fun ne e => ne (Prod.mk.inj e).1
    refine Or.inr (Or.inr ⟨⟨apart (Ne.symm here), apart ?_⟩, apart (Ne.symm there), apart ?_⟩)
    · exact fun e => there (by rw [e, back hc])
    · exact fun e => here (by rw [← back hc, ← e, back hb])

theorem Sound.withdraw_comm (key key' : Key) (stock : Multiset (Nat × UInt64)) :
    n.withdraw r (n.withdraw r stock key) key' = n.withdraw r (n.withdraw r stock key') key := by
  obtain ⟨v, b, located, hb, -⟩ := s.exists_locate hP key
  obtain ⟨w, c, located', hc, -⟩ := s.exists_locate hP key'
  simp only [withdraw_eq located, withdraw_eq located']
  exact takeOne_comm (s.sameOrApart hP hb hc) stock

/-- A class has a copy exactly if the two buckets of any of its keys have one. -/
theorem Sound.copies_pos_of_inClass {key : Key} {fingerprint : UInt64} {home : Nat}
    (located : n.locate r key = .ok (fingerprint, home)) {v : UInt64} {c : Nat}
    (hc : c < n.table.shape.buckets) (member : n.inClass r v c key = true) :
    0 < n.table.copies r.placement fingerprint home ↔ 0 < n.table.copies r.placement v c := by
  rw [inClass_eq located] at member
  unfold Placement.belongs at member
  obtain ⟨same, place⟩ := Bool.and_eq_true_iff.mp member
  obtain rfl : fingerprint = v := beq_iff_eq.mp same
  rw [copies_pos_iff, copies_pos_iff]
  rcases Bool.or_eq_true_iff.mp place with here | there
  · obtain rfl : home = c := beq_iff_eq.mp here
    exact Iff.rfl
  · obtain rfl : home = r.placement.partner n.table.shape fingerprint c := beq_iff_eq.mp there
    rw [hP.partner_partner s.wellFormed s.accepts fingerprint hc]
    exact Or.comm

end

/-! ## One deletion -/

/-- What deleting a key does. -/
structure Deletes (r : Rules σ) (n : Nest σ) (key : Key) (found : Bool) (n' : Nest σ) : Prop where
  run : n.erase r key = .ok (found, n')
  sound : n'.Sound r
  shape_eq : n'.table.shape = n.table.shape
  entries_eq : (n'.table.entries : Multiset (Nat × UInt64)) = n.withdraw r n.table.entries key
  length_eq : n'.table.entries.length + (if found then 1 else 0) = n.table.entries.length
  found_iff : ∀ {v c}, c < n.table.shape.buckets → n.inClass r v c key = true →
    (found = true ↔ 0 < n.table.copies r.placement v c)
  copies_eq : ∀ {v c}, v ≠ emptyCell → c < n.table.shape.buckets →
    n'.table.copies r.placement v c =
      n.table.copies r.placement v c - if n.inClass r v c key then 1 else 0

section

variable {r : Rules σ} {n : Nest σ} (hP : r.placement.Lawful) (s : n.Sound r)
include hP s

theorem Sound.erase_entries {key : Key} {found : Bool} {n' : Nest σ}
    (run : n.erase r key = .ok (found, n')) :
    (n'.table.entries : Multiset (Nat × UInt64)) = n.withdraw r n.table.entries key := by
  obtain ⟨fingerprint, home, located, inside, used, -⟩ := s.exists_locate hP key
  have other : n.alternate r home fingerprint < n.table.shape.buckets :=
    s.partner_lt hP fingerprint inside
  rw [withdraw_eq located, takeOne]
  rw [s.erase_eq hP located, Table.replaceIn, List.findSome?_cons, List.findSome?_singleton] at run
  cases held : n.table.slotOf? fingerprint home with
  | some slot =>
    rw [held] at run
    cases run
    obtain ⟨mem, rest⟩ := s.wellFormed.entries_wipe_eq inside used held
    rw [if_pos (Multiset.mem_coe.mpr mem)]
    exact rest
  | none =>
    rw [if_neg (mt Multiset.mem_coe.mp (Table.notMem_entries held))]
    rw [held] at run
    cases held' : n.table.slotOf? fingerprint (n.alternate r home fingerprint) with
    | some slot =>
      rw [held'] at run
      cases run
      exact (s.wellFormed.entries_wipe_eq other used held').2
    | none =>
      rw [held'] at run
      cases run
      exact (Multiset.erase_of_notMem (mt Multiset.mem_coe.mp (Table.notMem_entries held'))).symm

theorem Sound.exists_deletes (key : Key) : ∃ found n', Deletes r n key found n' := by
  obtain ⟨fingerprint, home, located, inside, -⟩ := s.exists_locate hP key
  obtain ⟨found, n', run, s', same, answer, counts⟩ := s.erase_copies hP key
  have found_iff : ∀ {v c}, c < n.table.shape.buckets → n.inClass r v c key = true →
      (found = true ↔ 0 < n.table.copies r.placement v c) := fun hc member =>
    (answer _ _ located).trans (s.copies_pos_of_inClass hP located hc member)
  refine ⟨found, n', run, s', same, s.erase_entries hP run, ?_, found_iff, ?_⟩
  · obtain ⟨found', m, run', erases⟩ := s.exists_erase hP located
    cases run.symm.trans run'
    have all := erases.countP_eq hP s inside (s.located hP located).2.1
      (show r.placement.Blind n.table.shape fun _ => true from fun _ _ _ => rfl)
    rwa [List.countP_true, Bool.and_true] at all
  · intro v c hv hc
    have balance := counts v c hv hc
    cases member : n.inClass r v c key with
    | false =>
      rw [member, Bool.and_false] at balance
      exact balance
    | true =>
      have hit := found_iff hc member
      rw [member, Bool.and_true] at balance
      cases found with
      | true =>
        rw [if_pos rfl] at balance ⊢
        omega
      | false =>
        have none : ¬ 0 < n.table.copies r.placement v c := fun some => (by cases hit.mpr some)
        rw [if_neg (by decide)] at balance
        rw [if_pos rfl]
        omega

end

/-! ## Many deletions -/

/-- What deleting keys one after the other does, whether or not they are there. -/
structure Withdraws (r : Rules σ) (n : Nest σ) (keys : List Key) (flags : List Bool) (n' : Nest σ) :
    Prop where
  run : n.accessAll r (keys.map .erase) = .ok (flags, n')
  sound : n'.Sound r
  shape_eq : n'.table.shape = n.table.shape
  entries_eq : (n'.table.entries : Multiset (Nat × UInt64)) =
    keys.foldl (n.withdraw r) n.table.entries
  length_eq : n'.table.entries.length + flags.count true = n.table.entries.length
  all_iff : flags.all id = true ↔ ∀ v c, v ≠ emptyCell → c < n.table.shape.buckets →
    keys.countP (n.inClass r v c) ≤ n.table.copies r.placement v c
  copies_eq : ∀ {v c}, v ≠ emptyCell → c < n.table.shape.buckets →
    n'.table.copies r.placement v c =
      n.table.copies r.placement v c - keys.countP (n.inClass r v c)

theorem withdraws_nil {r : Rules σ} {n : Nest σ} (s : n.Sound r) : Withdraws r n [] [] n where
  run := rfl
  sound := s
  shape_eq := rfl
  entries_eq := rfl
  length_eq := rfl
  all_iff := ⟨fun _ _ _ _ _ => Nat.zero_le _, fun _ => rfl⟩
  copies_eq _ _ := rfl

theorem Deletes.withdraws_cons {r : Rules σ} {n n₁ n₂ : Nest σ} (hP : r.placement.Lawful)
    (s : n.Sound r) {key : Key} {found : Bool} (first : Deletes r n key found n₁) {keys : List Key}
    {flags : List Bool} (rest : Withdraws r n₁ keys flags n₂) :
    Withdraws r n (key :: keys) (found :: flags) n₂ where
  run := accessAll_cons (a := .erase key) first.run rest.run
  sound := rest.sound
  shape_eq := rest.shape_eq.trans first.shape_eq
  entries_eq := by
    rw [rest.entries_eq, withdraw_of_shape_eq r first.shape_eq, first.entries_eq, List.foldl_cons]
  length_eq := by
    have before := first.length_eq
    have after := rest.length_eq
    rw [List.count_cons]
    cases found <;> simp at before ⊢ <;> omega
  all_iff := by
    have classes : n₁.inClass r = n.inClass r :=
      funext fun v => funext fun c => inClass_eq_of rfl first.shape_eq v c
    rw [List.all_cons, Bool.and_eq_true_iff, rest.all_iff, first.shape_eq]
    simp only [classes, List.countP_cons]
    constructor
    · rintro ⟨hit, enough⟩ v c hv hc
      have left := enough v c hv hc
      rw [first.copies_eq hv hc] at left
      split
      next member =>
        have some := (first.found_iff hc member).mp hit
        rw [if_pos member] at left
        omega
      next outside =>
        rw [if_neg outside] at left
        exact left
    · intro enough
      obtain ⟨fingerprint, home, located, inside, used, -⟩ := s.exists_locate hP key
      have own := inClass_self located
      constructor
      · -- the key is one of its own class, so the class has a copy
        have some := enough fingerprint home used inside
        rw [if_pos own] at some
        exact (first.found_iff inside own).mpr (by omega)
      · intro v c hv hc
        have before := enough v c hv hc
        rw [first.copies_eq hv hc]
        omega
  copies_eq := by
    intro v c hv hc
    have classes : n₁.inClass r v c = n.inClass r v c := inClass_eq_of rfl first.shape_eq v c
    rw [rest.copies_eq hv (first.shape_eq ▸ hc), first.copies_eq hv hc, classes, List.countP_cons]
    omega

theorem Sound.exists_withdraws {r : Rules σ} (hP : r.placement.Lawful) : ∀ (keys : List Key)
    {n : Nest σ}, n.Sound r → ∃ flags n', Withdraws r n keys flags n' := by
  intro keys
  induction keys with
  | nil =>
    intro n s
    exact ⟨[], n, withdraws_nil s⟩
  | cons key keys ih =>
    intro n s
    obtain ⟨found, n₁, first⟩ := s.exists_deletes hP key
    obtain ⟨flags, n₂, rest⟩ := ih first.sound
    exact ⟨found :: flags, n₂, first.withdraws_cons hP s rest⟩

section

variable {r : Rules σ} {n m m' : Nest σ} (hP : r.placement.Lawful) (s : n.Sound r)
  {keys keys' : List Key} {flags flags' : List Bool} (w : Withdraws r n keys flags m)
  (w' : Withdraws r n keys' flags' m') (perm : keys.Perm keys')
include w w' perm

theorem Withdraws.all_eq : flags'.all id = flags.all id := by
  rw [Bool.eq_iff_iff, w.all_iff, w'.all_iff]
  simp only [perm.countP_eq]

include hP s

/-- **In every order of the same deletions the same entries are left.** -/
theorem Withdraws.entries_perm : m.table.entries.Perm m'.table.entries := by
  refine Multiset.coe_eq_coe.mp ?_
  rw [w.entries_eq, w'.entries_eq]
  exact perm.foldl_eq' (fun key _ key' _ stock => s.withdraw_comm hP key key' stock) _

theorem Withdraws.count_eq : flags'.count true = flags.count true := by
  have left := (w.entries_perm hP s w' perm).length_eq
  have mine := w.length_eq
  have theirs := w'.length_eq
  omega

theorem Withdraws.alike : m.table.Alike m'.table :=
  Table.alike_of_entries_perm (w'.shape_eq.trans w.shape_eq.symm) (w.entries_perm hP s w' perm)

end

end Nest

end Cuckoo

import Cuckoo.Proofs.Nest.Storing

/-!
# Classes of fingerprints

All objects with one fingerprint and one pair of buckets are the same to a table: they form a class.
`Table.copies` counts how many fingerprints of a class there are, whichever of the two buckets they
are in. The count is the one thing about a table that evictions cannot touch, and it is what every
answer depends on.

**Moving a fingerprint to its other bucket changes no property that is blind to the move.** Stated
this way, `Chases.countP_eq` covers all classes at once, and the total number of entries with them:
the fingerprint in hand and the entries of the table together are the same from turn to turn. It
holds of chains that come back to a bucket, of a bucket that is its own alternate and of a victim that
equals the fingerprint in hand, since none of these is a case of the proof.
-/

set_option autoImplicit false

namespace Cuckoo

open Hash Runs

namespace Placement

variable {P : Placement}

/-- Does an entry belong to the class of a fingerprint in a bucket? -/
def belongs (P : Placement) (s : Shape) (fingerprint : UInt64) (bucket : Nat)
    (entry : Nat × UInt64) : Bool :=
  entry.2 == fingerprint && (entry.1 == bucket || entry.1 == P.partner s fingerprint bucket)

/-- A property of entries that does not tell the two buckets of a fingerprint apart. -/
def Blind (P : Placement) (s : Shape) (p : Nat × UInt64 → Bool) : Prop :=
  ∀ fingerprint bucket, bucket < s.buckets →
    p (P.partner s fingerprint bucket, fingerprint) = p (bucket, fingerprint)

theorem Lawful.alternatesBelow (hP : P.Lawful) {m : UInt64} (ha : P.Accepts m) :
    P.AlternatesBelow m := by
  intro bucket fingerprint hb
  exact hP.alternate_lt fingerprint ha hb

theorem Lawful.partner_partner (hP : P.Lawful) {t : Table} (h : t.WellFormed)
    (ha : P.Accepts (UInt64.ofNat t.shape.buckets)) (fingerprint : UInt64) {bucket : Nat}
    (hb : bucket < t.shape.buckets) :
    P.partner t.shape fingerprint (P.partner t.shape fingerprint bucket) = bucket := by
  obtain ⟨below, same⟩ := ofNat_bucket_lt h hb
  unfold partner
  rw [UInt64.ofNat_toNat, hP.alternate_alternate fingerprint ha below, same]

theorem Lawful.blind_belongs (hP : P.Lawful) {t : Table} (h : t.WellFormed)
    (ha : P.Accepts (UInt64.ofNat t.shape.buckets)) (fingerprint : UInt64) {bucket : Nat}
    (hb : bucket < t.shape.buckets) : P.Blind t.shape (P.belongs t.shape fingerprint bucket) := by
  intro value other hother
  unfold belongs
  by_cases same : value = fingerprint
  · subst same
    have back := hP.partner_partner h ha value hb
    have back' := hP.partner_partner h ha value hother
    -- the partner of a bucket is one of a pair exactly when the bucket is the other one
    have there : P.partner t.shape value other = bucket ↔ other = P.partner t.shape value bucket :=
      ⟨fun e => by rw [← e, back'], fun e => by rw [e, back]⟩
    have here : P.partner t.shape value other = P.partner t.shape value bucket ↔ other = bucket :=
      ⟨fun e => by rw [← back', e, back], fun e => by rw [e]⟩
    rw [Bool.eq_iff_iff]
    simp only [beq_self_eq_true, Bool.true_and, Bool.or_eq_true, beq_iff_eq, there, here]
    exact Or.comm
  · have off : (value == fingerprint) = false := beq_eq_false_iff_ne.mpr same
    dsimp only
    rw [off, Bool.false_and, Bool.false_and]

end Placement

/-- How many fingerprints of a class there are: the slots that hold the fingerprint in a bucket and
in its alternate bucket, or in the one bucket that is both. -/
def Table.copies (t : Table) (P : Placement) (fingerprint : UInt64) (bucket : Nat) : Nat :=
  let other := P.partner t.shape fingerprint bucket
  (t.row bucket).count fingerprint + if other = bucket then 0 else (t.row other).count fingerprint

theorem Table.countP_belongs {t : Table} {P : Placement} {fingerprint : UInt64} {bucket : Nat}
    (used : fingerprint ≠ emptyCell) (hb : bucket < t.shape.buckets)
    (hother : P.partner t.shape fingerprint bucket < t.shape.buckets) :
    t.entries.countP (P.belongs t.shape fingerprint bucket) = t.copies P fingerprint bucket := by
  -- the class is one item or two, as its two buckets are one or two
  have split : ∀ l : List (Nat × UInt64), l.countP (P.belongs t.shape fingerprint bucket) =
      l.count (bucket, fingerprint) + if P.partner t.shape fingerprint bucket = bucket then 0
        else l.count (P.partner t.shape fingerprint bucket, fingerprint) := by
    intro l
    induction l with
    | nil => simp
    | cons entry l ih =>
      obtain ⟨b, v⟩ := entry
      rw [List.countP_cons, ih, List.count_cons, List.count_cons]
      unfold Placement.belongs
      by_cases hv : v = fingerprint
      · by_cases h₁ : b = bucket
        · by_cases h₂ : P.partner t.shape fingerprint bucket = bucket
          · simp [hv, h₁, h₂]
          · simp [hv, h₁, h₂, Ne.symm h₂]
            omega
        · by_cases h₂ : b = P.partner t.shape fingerprint bucket
          · by_cases h₃ : P.partner t.shape fingerprint bucket = bucket
            · exact absurd (h₂.trans h₃) h₁
            · simp [hv, h₂, h₃]
              omega
          · simp [hv, h₁, h₂]
      · simp [hv]
  unfold copies
  rw [split, Table.count_entries hb used, Table.count_entries hother used]

namespace Nest

variable {σ : Type} {r : Rules σ} {n : Nest σ} {fingerprint : UInt64} {bucket : Nat}

/-! ## Evictions move fingerprints between their two buckets -/

/-- The fingerprint in hand and the entries are together the same after a turn, up to the move of the
victim. -/
theorem Turn.countP_eq {e : Eviction} {next : Nest σ} (turn : Turn r n fingerprint bucket e next)
    (h : n.table.WellFormed) (hand : n.table.Pending fingerprint bucket)
    {p : Nat × UInt64 → Bool} (blind : r.placement.Blind n.table.shape p) :
    ((n.alternate r bucket e.victim, e.victim) :: next.table.entries).countP p =
      ((bucket, fingerprint) :: n.table.entries).countP p := by
  have old : n.table.cell bucket e.slot ≠ emptyCell := turn.victim_eq ▸ turn.victim_used hand
  have swap := h.entries_swap hand.bucket_lt turn.slot_lt old hand.used hand.fits
  rw [← turn.table_eq, ← turn.victim_eq] at swap
  rw [← swap.countP_eq, List.countP_cons, List.countP_cons, alternate_eq,
    blind e.victim bucket hand.bucket_lt]

/-- **A chain that settles loses nothing and makes nothing up**: what it ends with is what was there
and the fingerprint in hand, up to moves between the two buckets of a fingerprint. -/
theorem Chases.countP_eq {left : Nat} {trail : List Eviction} {chain : Chain σ}
    (chases : Chases r left n fingerprint bucket trail chain) (h : n.table.WellFormed)
    (hP : r.placement.AlternatesBelow n.bucketCount) (hand : n.table.Pending fingerprint bucket)
    {p : Nat × UInt64 → Bool} (blind : r.placement.Blind n.table.shape p) :
    ∀ {attempts : Nat} {last : Nest σ}, chain = .settled attempts last →
      last.table.entries.countP p = ((bucket, fingerprint) :: n.table.entries).countP p := by
  induction chases with
  | spent => intro attempts last ends; cases ends
  | settles turn room =>
    intro attempts last ends
    cases ends
    obtain ⟨hs, free⟩ := Table.slotOf?_eq_some room
    have fill := (turn.wellFormed h hand).entries_fill (turn.alternate_lt h hand hP) hs free
      (turn.victim_used hand) (turn.victim_fits h)
    exact (fill.countP_eq p).trans (turn.countP_eq h hand blind)
  | onward turn full _ ih =>
    intro attempts last ends
    have rest := ih (turn.wellFormed h hand) (turn.bucketCount_eq ▸ hP)
      (turn.pending h hand hP full) (turn.shape_eq ▸ blind) ends
    exact rest.trans (turn.countP_eq h hand blind)

/-- Storing a fingerprint adds it to the entries, up to such moves, or changes nothing. -/
theorem Stores.countP_eq {tried : List Nat} {o : Outcome (Nest σ)}
    (stores : Stores r n fingerprint bucket tried o) (h : n.table.WellFormed)
    (hP : r.placement.AlternatesBelow n.bucketCount) (inside : bucket < n.table.shape.buckets)
    (used : fingerprint ≠ emptyCell) (fits : n.table.fits fingerprint = true)
    (mem : bucket ∈ tried)
    (own : ∀ place ∈ tried, place = bucket ∨ place = n.alternate r bucket fingerprint)
    {p : Nat × UInt64 → Bool} (blind : r.placement.Blind n.table.shape p) :
    o.state.table.entries.countP p =
      n.table.entries.countP p + if o.done && p (bucket, fingerprint) then 1 else 0 := by
  cases stores with
  | atOnce hplace room =>
    rename_i place slot
    obtain ⟨hs, free⟩ := Table.slotOf?_eq_some room
    -- wherever there is room, it is one of the two buckets of the fingerprint
    have there : place < n.table.shape.buckets ∧ p (place, fingerprint) = p (bucket, fingerprint) := by
      rcases own place hplace with rfl | rfl
      · exact ⟨inside, rfl⟩
      · exact ⟨hP.partner_lt h _ inside, blind _ _ inside⟩
    have fill := h.entries_fill there.1 hs free used fits
    rw [show (Outcome.mk true _ _ : Outcome (Nest σ)).state.table = _ from rfl, fill.countP_eq,
      List.countP_cons, there.2]
    rfl
  | moved full chases =>
    have hand := Stores.pending inside used fits mem full
    exact (chases.countP_eq h hP hand blind rfl).trans List.countP_cons
  | gaveUp => rfl

end Nest

end Cuckoo

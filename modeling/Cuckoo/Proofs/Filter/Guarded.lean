import Cuckoo.Proofs.Filter.Backing
import Cuckoo.Proofs.Filter.Malformed
import Cuckoo.Proofs.Nest.Guarded

/-!
# A filter in bounded numbers

The operations of a filter, on one object and on many, with the hash before them and the nest below them
computing in bounded numbers. A filter adds no numbers of its own, except that it sizes its byte string
before it writes it. What an operation asks of its objects is that their bytes can be counted.

`InBounds` collects what is in range for a sound filter, whatever it holds: it is what the single steps
rest on, and it can be said without a run.
-/

set_option autoImplicit false

namespace Cuckoo.Filter

open Draw Hash Runs

/-! ## One object -/

def insert? (f : Filter) (x : Item) : Option (Outcome Filter) := do
  let key ← x.key? f.seed
  let outcome ← f.nest.insert? f.scheme f.budget key
  pure (outcome.map fun nest => { f with nest })

def contains? (f : Filter) (x : Item) : Option Bool := do
  let key ← x.key? f.seed
  f.nest.contains? f.scheme key

def erase? (f : Filter) (x : Item) : Option (Bool × Filter) := do
  let key ← x.key? f.seed
  let (found, nest) ← f.nest.erase? f.scheme key
  pure (found, { f with nest })

/-! ## Several objects -/

def insertEach? (f : Filter) : List Item → Option (List Bool × Outcome Filter)
  | [] => pure ([], ⟨true, f, []⟩)
  | x :: xs => do
    let first ← f.insert? x
    let (flags, rest) ← first.state.insertEach? xs
    pure (first.done :: flags, ⟨first.done && rest.done, rest.state, first.events ++ rest.events⟩)

def insertAll? (f : Filter) : List Item → Option (Outcome Filter)
  | [] => pure ⟨true, f, []⟩
  | x :: xs => do
    let first ← f.insert? x
    if first.done then
      let rest ← first.state.insertAll? xs
      pure { rest with events := first.events ++ rest.events }
    else pure first

def containsEach? (f : Filter) (xs : List Item) : Option (List Bool) := xs.mapM f.contains?

def containsAll? (f : Filter) : List Item → Option Bool
  | [] => pure true
  | x :: xs => do if ← f.contains? x then f.containsAll? xs else pure false

def eraseEach? (f : Filter) : List Item → Option (List Bool × Filter)
  | [] => pure ([], f)
  | x :: xs => do
    let (found, f) ← f.erase? x
    let (flags, f) ← f.eraseEach? xs
    pure (found :: flags, f)

def eraseAll? (f : Filter) (xs : List Item) : Option (Bool × Filter) := do
  let (flags, f) ← f.eraseEach? xs
  pure (flags.all id, f)

/-! ## Whole filters -/

def absorb? (f g : Filter) : Option (Except Failure (Outcome Filter)) :=
  if f.agrees g then do
    let outcome ← f.nest.merge? f.scheme f.budget g.table
    pure (.ok (outcome.map fun nest => { f with nest }))
  else pure (.error (.incompatible f.describe g.describe))

def sameContents? (f g : Filter) : Option Bool :=
  if f.seed == g.seed && f.scheme == g.scheme then f.table.sameContents? g.table else pure false

/-- Room for the bytes is set aside before they are written. -/
def encode? (f : Filter) : Option (List UInt8) := do
  let inWords ← word? (f.table.words.size * 8)
  let _ ← word? (headerSize + inWords)
  pure f.encode

/-- What is in range for a filter: both buckets of a fingerprint, every slot that is picked, the number
of slots, and the bits of each of them. -/
structure InBounds (f : Filter) : Prop where
  home : ∀ key : Key, ∃ fingerprint home, f.nest.locate f.rules key = .ok (fingerprint, home) ∧
    f.nest.locate? f.scheme key = some (fingerprint, home) ∧ home < f.table.shape.buckets ∧
    f.table.fits fingerprint = true
  alternate : ∀ bucket < f.table.shape.buckets, ∀ fingerprint : UInt64, ∃ other,
    f.nest.alternate f.rules bucket fingerprint = other ∧
      f.nest.alternate? f.scheme bucket fingerprint = some other ∧ other < f.table.shape.buckets
  victim : ∀ generator : Keystream, ∃ slot generator',
    below f.table.shape.slots generator = .ok (slot, generator') ∧
      below? f.table.shape.slots generator = some (slot, generator') ∧ slot < f.table.shape.slots
  capacity : f.table.shape.buckets * f.table.shape.slots < UInt64.size
  span : ∀ bucket < f.table.shape.buckets, ∀ slot < f.table.shape.slots,
    (bucket * f.table.shape.slots + slot) * f.table.shape.bits < UInt64.size ∧
      (bucket * f.table.shape.slots + slot) * f.table.shape.bits + f.table.shape.bits ≤
        64 * f.table.words.size

section

variable {f : Filter} (s : f.Sound)
include s

theorem Sound.guarded : f.nest.Sound (f.scheme.rules f.budget) := s

/-- **Everything is in range for a sound filter.** -/
theorem Sound.inBounds : f.InBounds where
  home key := by
    obtain ⟨fingerprint, home, located, inside, -, fits⟩ := s.exists_locate f.rules_lawful key
    have found := s.guarded.keepsUp_locate key _ located
    exact ⟨fingerprint, home, located, found.1, inside, fits⟩
  alternate bucket hb fingerprint :=
    ⟨_, rfl, s.guarded.alternate?_eq fingerprint hb, s.partner_lt f.rules_lawful fingerprint hb⟩
  victim generator := exists_below? s.wellFormed.slots_pos s.wellFormed.slots_lt generator
  capacity := s.wellFormed.capacity_lt
  span _ hb _ hs := ⟨Shape.offset_lt s.wellFormed.shape_ok hb hs, s.wellFormed.span_inside hb hs⟩

theorem Sound.keepsUp_insert {x : Item} (countable : x.Countable) :
    KeepsUp (f.insert? x) (f.insert x) fun o => o.state.Sound :=
  KeepsUp.after (countable.key?_eq f.seed)
    ((s.guarded.keepsUp_insert (x.key f.seed)).bind fun _ s' => keepsUp_some s')

theorem Sound.keepsUp_contains {x : Item} (countable : x.Countable) :
    KeepsUp (f.contains? x) (f.contains x) fun _ => True :=
  KeepsUp.after (countable.key?_eq f.seed) (s.guarded.keepsUp_contains (x.key f.seed))

theorem Sound.keepsUp_erase {x : Item} (countable : x.Countable) :
    KeepsUp (f.erase? x) (f.erase x) fun next => next.2.Sound :=
  KeepsUp.after (countable.key?_eq f.seed)
    ((s.guarded.keepsUp_erase (x.key f.seed)).bind fun _ s' => keepsUp_some s')

theorem Sound.keepsUp_containsEach {xs : List Item} (countable : ∀ x ∈ xs, x.Countable) :
    KeepsUp (f.containsEach? xs) (f.containsEach xs) fun _ => True :=
  KeepsUp.mapM fun x mem => s.keepsUp_contains (countable x mem)

theorem Sound.keepsUp_containsAll : ∀ {xs : List Item}, (∀ x ∈ xs, x.Countable) →
    KeepsUp (f.containsAll? xs) (f.containsAll xs) fun _ => True := by
  intro xs
  induction xs with
  | nil => exact fun _ => keepsUp_some trivial
  | cons x xs ih =>
    intro countable
    obtain ⟨first, others⟩ := List.forall_mem_cons.mp countable
    refine (s.keepsUp_contains first).bind fun found _ => ?_
    exact KeepsUp.ite (fun _ => ih others) fun _ => keepsUp_some trivial

theorem Sound.keepsUp_absorb {g : Filter} (s' : g.Sound) :
    KeepsUp (f.absorb? g) (f.absorb g) fun made => ∀ o, made = .ok o → o.state.Sound := by
  refine KeepsUp.ite (fun agrees => ?_) fun _ => keepsUp_some nofun
  have compatible : f.nest.table.compatible g.nest.table = true :=
    beq_iff_eq.mpr (agrees_iff.mp agrees).2.2.symm
  refine (s.guarded.keepsUp_merge s'.wellFormed compatible).bind fun outcome after => ?_
  refine keepsUp_some fun o same => ?_
  cases same
  exact after

theorem Sound.sameContents?_eq {g : Filter} (s' : g.Sound) : f.sameContents? g = some (f == g) := by
  show _ = some (f.sameContents g)
  unfold sameContents? sameContents
  cases f.seed == g.seed && f.scheme == g.scheme with
  | false => rfl
  | true => exact s.wellFormed.sameContents?_eq s'.wellFormed

theorem Sound.encode?_eq : f.encode? = some f.encode := by
  have small : f.table.words.size * 8 + headerSize < UInt64.size := by
    have total := s.wellFormed.totalBits_lt
    have words : f.table.words.size = (f.nest.table.shape.totalBits + 63) / 64 := s.wellFormed.size_words
    unfold headerSize UInt64.size
    omega
  unfold encode?
  rw [word?_eq (Nat.lt_of_le_of_lt (Nat.le_add_right _ _) small), Option.bind_eq_bind,
    Option.bind_some, word?_eq (Nat.add_comm _ _ ▸ small)]
  rfl

end

theorem Sound.keepsUp_insertEach : ∀ {xs : List Item} {f : Filter}, (∀ x ∈ xs, x.Countable) → f.Sound →
    KeepsUp (f.insertEach? xs) (f.insertEach xs) fun next => next.2.state.Sound := by
  intro xs
  induction xs with
  | nil => exact fun _ s => keepsUp_some s
  | cons x xs ih =>
    intro f countable s
    obtain ⟨counted, others⟩ := List.forall_mem_cons.mp countable
    refine (s.keepsUp_insert counted).bind fun first s' => ?_
    exact (ih others s').bind fun _ s'' => keepsUp_some s''

theorem Sound.keepsUp_insertAll : ∀ {xs : List Item} {f : Filter}, (∀ x ∈ xs, x.Countable) → f.Sound →
    KeepsUp (f.insertAll? xs) (f.insertAll xs) fun o => o.state.Sound := by
  intro xs
  induction xs with
  | nil => exact fun _ s => keepsUp_some s
  | cons x xs ih =>
    intro f countable s
    obtain ⟨counted, others⟩ := List.forall_mem_cons.mp countable
    refine (s.keepsUp_insert counted).bind fun first s' => ?_
    refine KeepsUp.ite (fun _ => ?_) fun _ => keepsUp_some s'
    exact (ih others s').bind fun _ s'' => keepsUp_some s''

theorem Sound.keepsUp_eraseEach : ∀ {xs : List Item} {f : Filter}, (∀ x ∈ xs, x.Countable) → f.Sound →
    KeepsUp (f.eraseEach? xs) (f.eraseEach xs) fun next => next.2.Sound := by
  intro xs
  induction xs with
  | nil => exact fun _ s => keepsUp_some s
  | cons x xs ih =>
    intro f countable s
    obtain ⟨counted, others⟩ := List.forall_mem_cons.mp countable
    refine (s.keepsUp_erase counted).bind fun (found, f') s' => ?_
    exact (ih others s').bind fun _ s'' => keepsUp_some s''

theorem Sound.keepsUp_eraseAll {xs : List Item} {f : Filter} (countable : ∀ x ∈ xs, x.Countable)
    (s : f.Sound) : KeepsUp (f.eraseAll? xs) (f.eraseAll xs) fun next => next.2.Sound :=
  (Sound.keepsUp_eraseEach countable s).bind fun _ s' => keepsUp_some s'

end Cuckoo.Filter

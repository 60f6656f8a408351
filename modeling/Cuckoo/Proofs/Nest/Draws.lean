import Cuckoo.Nest.Basic
import Cuckoo.Proofs.Runs

/-!
# Victims that were picked

How many victims an operation picked is not among its answers: all that it hands back is the
generator. Here the generator gets a counter, which goes up with each pick, and nothing else is
changed.

**The events of an operation account for its picks.** The run with the counter is the run without it,
and the counter rises by the number of attempts in the events (`insert_counting`, `merge_counting`).
Nothing is asked of the rules, the table or the generator for this.
-/

set_option autoImplicit false

namespace Cuckoo

open Hash Runs

/-- The same rules with a generator that counts its picks. -/
def Rules.counting {σ : Type} (r : Rules σ) : Rules (σ × Nat) where
  placement := r.placement
  pick := fun (s, drawn) slots => do
    let (slot, s) ← r.pick s slots
    pure (slot, (s, drawn + 1))
  budget := r.budget

namespace Event

/-- The number of evictions that an event is the end of. -/
def attempts : Event → Nat
  | relocated attempt => attempt
  | exhausted attempts _ => attempts
  | mergeStopped _ _ _ => 0

def allAttempts : List Event → Nat
  | [] => 0
  | event :: events => event.attempts + allAttempts events

@[simp] theorem allAttempts_append (events later : List Event) :
    allAttempts (events ++ later) = allAttempts events + allAttempts later := by
  induction events with
  | nil => exact (Nat.zero_add _).symm
  | cons event events ih => rw [List.cons_append, allAttempts, ih, allAttempts, Nat.add_assoc]

end Event

namespace Nest

variable {σ : Type}

/-- The nest with a count of the picks made so far. -/
def counting (n : Nest σ) (drawn : Nat) : Nest (σ × Nat) := ⟨n.table, (n.picker, drawn)⟩

/-- The outcome with the count raised by the attempts in its events. -/
def countingOutcome (drawn : Nat) (o : Outcome (Nest σ)) : Outcome (Nest (σ × Nat)) :=
  o.map (·.counting (drawn + Event.allAttempts o.events))

def countingChain (drawn : Nat) : Chain σ → Chain (σ × Nat)
  | .settled attempts n => .settled attempts (n.counting (drawn + attempts))
  | .exhausted evictions n => .exhausted evictions (n.counting (drawn + evictions.length))

section

variable (r : Rules σ)

theorem evict_counting (n : Nest σ) (drawn : Nat) (fingerprint : UInt64) (bucket : Nat) :
    (n.counting drawn).evict r.counting fingerprint bucket =
      (n.evict r fingerprint bucket).map fun (e, next) => (e, next.counting (drawn + 1)) := by
  have picks : r.counting.pick (n.counting drawn).picker (n.counting drawn).table.shape.slots =
      (r.pick n.picker n.table.shape.slots).map fun (slot, s) => (slot, (s, drawn + 1)) := by
    show (r.pick n.picker n.table.shape.slots >>= _) = _
    cases r.pick n.picker n.table.shape.slots <;> rfl
  unfold evict
  rw [picks]
  cases r.pick n.picker n.table.shape.slots with
  | error refusal => rfl
  | ok picked =>
    show (n.table.exchange fingerprint bucket picked.1 >>= _) =
      (n.table.exchange fingerprint bucket picked.1 >>= _).map _
    cases n.table.exchange fingerprint bucket picked.1 <;> rfl

/-- The trail is as long as the number of picks, all along the chain. -/
theorem chase_counting (drawn : Nat) : ∀ (left : Nat) (n : Nest σ) (fingerprint : UInt64)
    (bucket : Nat) (trail : List Eviction),
    chase r.counting left (n.counting (drawn + trail.length)) fingerprint bucket trail =
      (chase r left n fingerprint bucket trail).map (countingChain drawn) := by
  intro left
  induction left with
  | zero => exact fun _ _ _ _ => rfl
  | succ left ih =>
    intro n fingerprint bucket trail
    rw [chase, chase, evict_counting]
    cases n.evict r fingerprint bucket with
    | error refusal => rfl
    | ok evicted =>
      obtain ⟨e, next⟩ := evicted
      -- both runs ask the same table for room
      show (next.table.put e.victim (next.alternate r bucket e.victim) >>= _) =
        (next.table.put e.victim (next.alternate r bucket e.victim) >>= _).map _
      cases next.table.put e.victim (next.alternate r bucket e.victim) with
      | error refusal => rfl
      | ok found =>
        cases found with
        | some table => rfl
        | none => exact ih next e.victim (next.alternate r bucket e.victim) (e :: trail)

theorem length_of_chase_exhausted : ∀ {left : Nat} {n last : Nest σ} {fingerprint : UInt64}
    {bucket : Nat} {trail evictions : List Eviction},
    chase r left n fingerprint bucket trail = .ok (.exhausted evictions last) →
    evictions.length = trail.length + left := by
  intro left
  induction left with
  | zero =>
    intro n last fingerprint bucket trail evictions run
    cases run
    rfl
  | succ left ih =>
    intro n last fingerprint bucket trail evictions run
    obtain ⟨⟨e, next⟩, -, run⟩ := bind_eq_ok_iff.mp run
    obtain ⟨found, -, run⟩ := bind_eq_ok_iff.mp run
    cases found with
    | some table => cases run
    | none =>
      rw [ih run, List.length_cons]
      omega

theorem relocate_counting (n : Nest σ) (drawn : Nat) (fingerprint : UInt64) (bucket : Nat) :
    (n.counting drawn).relocate r.counting fingerprint bucket =
      (n.relocate r fingerprint bucket).map (countingOutcome drawn) := by
  have chased : chase r.counting r.counting.budget (n.counting drawn) fingerprint bucket [] =
      (chase r r.budget n fingerprint bucket []).map (countingChain drawn) :=
    chase_counting r drawn r.budget n fingerprint bucket []
  unfold relocate
  rw [chased]
  cases run : chase r r.budget n fingerprint bucket [] with
  | error refusal => rfl
  | ok chain =>
    cases chain with
    | settled attempts last => rfl
    | exhausted evictions last =>
      have spent : evictions.length = r.budget :=
        (length_of_chase_exhausted r run).trans (Nat.zero_add _)
      show (undo evictions last.table >>= _) = (undo evictions last.table >>= _).map _
      cases undo evictions last.table with
      | error refusal => rfl
      | ok table =>
        show Except.ok (Outcome.mk false (Nest.mk table (_, drawn + evictions.length)) _) = _
        rw [spent]
        rfl

/-- **The count of an insertion is that of its events.** -/
theorem insert_counting (n : Nest σ) (drawn : Nat) (key : Key) :
    (n.counting drawn).insert r.counting key =
      (n.insert r key).map (countingOutcome drawn) := by
  show (n.locate r key >>= _) = (n.locate r key >>= _).map _
  cases n.locate r key with
  | error refusal => rfl
  | ok located =>
    obtain ⟨fingerprint, home⟩ := located
    show (n.table.put fingerprint home >>= _) = (n.table.put fingerprint home >>= _).map _
    cases n.table.put fingerprint home with
    | error refusal => rfl
    | ok first =>
      cases first with
      | some table => rfl
      | none =>
        show (n.table.put fingerprint (n.alternate r home fingerprint) >>= _) =
          (n.table.put fingerprint (n.alternate r home fingerprint) >>= _).map _
        cases n.table.put fingerprint (n.alternate r home fingerprint) with
        | error refusal => rfl
        | ok second =>
          cases second with
          | some table => rfl
          | none => exact relocate_counting r n drawn fingerprint home

theorem place_counting (n : Nest σ) (drawn : Nat) (fingerprint : UInt64) (bucket : Nat) :
    (n.counting drawn).place r.counting fingerprint bucket =
      (n.place r fingerprint bucket).map (countingOutcome drawn) := by
  show (n.table.put fingerprint bucket >>= _) = (n.table.put fingerprint bucket >>= _).map _
  cases n.table.put fingerprint bucket with
  | error refusal => rfl
  | ok found =>
    cases found with
    | some table => rfl
    | none => exact relocate_counting r n drawn fingerprint bucket

theorem placeAll_counting (total : Nat) : ∀ (entries : List (Nat × UInt64)) (merged : Nat)
    (n : Nest σ) (drawn : Nat),
    placeAll r.counting total merged (n.counting drawn) entries =
      (placeAll r total merged n entries).map (countingOutcome drawn) := by
  intro entries
  induction entries with
  | nil => exact fun _ _ _ => rfl
  | cons entry entries ih =>
    intro merged n drawn
    obtain ⟨bucket, fingerprint⟩ := entry
    rw [placeAll, placeAll, place_counting]
    cases n.place r fingerprint bucket with
    | error refusal => rfl
    | ok first =>
      obtain ⟨done, state, events⟩ := first
      cases done with
      | false =>
        -- the event that is added is not the end of an eviction
        refine congrArg Except.ok ?_
        unfold countingOutcome Outcome.map
        rw [Event.allAttempts_append]
        rfl
      | true =>
        have later := ih (merged + 1) state (drawn + Event.allAttempts events)
        show (placeAll r.counting total (merged + 1)
            (state.counting (drawn + Event.allAttempts events)) entries >>= _) =
          (placeAll r total (merged + 1) state entries >>= _).map _
        rw [later]
        cases placeAll r total (merged + 1) state entries with
        | error refusal => rfl
        | ok rest =>
          refine congrArg Except.ok ?_
          simp only [countingOutcome, Outcome.map, Event.allAttempts_append, Nat.add_assoc]

theorem merge_counting (n : Nest σ) (drawn : Nat) (other : Table) :
    (n.counting drawn).merge r.counting other =
      (n.merge r other).map (countingOutcome drawn) :=
  placeAll_counting r other.count other.entries 0 n drawn

end

end Nest

end Cuckoo

import Cuckoo.Nest.Basic
import Cuckoo.Proofs.Table.Grid
import Mathlib.Control.Monad.Writer

/-!
# The changes that an operation makes

An operation of a nest changes its table in many small steps: an eviction overwrites a cell, a victim is
put into another bucket, a failed insertion overwrites the cells once more. The script of an operation
lists these changes in their order, and can be read off the rules and the nest before.

Nothing would keep a script from leaving out a change, so the operations are also run with a writer that
takes down every call of a table when it is made (`Recorded`). **A recorded run is the run, and what it
takes down is the script** (`tells_insert` and those after it): there is no change that a script does not
have, and none that is not made.
-/

set_option autoImplicit false

namespace Cuckoo

open Hash Runs Table

namespace Nest

variable {σ : Type}

/-! ## Scripts -/

/-- The changes of an eviction loop. -/
def chaseEdits (r : Rules σ) : (left : Nat) → Nest σ → (fingerprint : UInt64) → (bucket : Nat) →
    List Edit
  | 0, _, _, _ => []
  | left + 1, n, fingerprint, bucket =>
    match n.evict r fingerprint bucket with
    | .error _ => []
    | .ok (e, n) =>
      let alternate := n.alternate r bucket e.victim
      .exchange fingerprint bucket e.slot :: .put e.victim alternate ::
        match n.table.put e.victim alternate with
        | .ok none => chaseEdits r left n e.victim alternate
        | _ => []

/-- The changes that undo evictions. -/
def undoEdits (evictions : List Eviction) : List Edit :=
  evictions.map fun e => .exchange e.victim e.bucket e.slot

def relocateEdits (r : Rules σ) (n : Nest σ) (fingerprint : UInt64) (bucket : Nat) : List Edit :=
  chaseEdits r r.budget n fingerprint bucket ++
    match chase r r.budget n fingerprint bucket [] with
    | .ok (.exhausted evictions _) => undoEdits evictions
    | _ => []

/-- The changes that store a fingerprint: in the first of some buckets that has an empty cell, else by
making room in `bucket`. -/
def storeEdits (r : Rules σ) (n : Nest σ) (fingerprint : UInt64) (bucket : Nat) :
    (places : List Nat) → List Edit
  | [] => n.relocateEdits r fingerprint bucket
  | place :: places => .put fingerprint place ::
    match n.table.put fingerprint place with
    | .ok none => storeEdits r n fingerprint bucket places
    | _ => []

def insertEdits (r : Rules σ) (n : Nest σ) (key : Key) : List Edit :=
  match n.locate r key with
  | .ok (fingerprint, home) =>
    n.storeEdits r fingerprint home [home, n.alternate r home fingerprint]
  | .error _ => []

def eraseEdits (r : Rules σ) (n : Nest σ) (key : Key) : List Edit :=
  match n.locate r key with
  | .ok (fingerprint, home) => .replaceFirst emptyCell fingerprint home ::
    match n.table.replaceFirst emptyCell fingerprint home with
    | .ok none => [.replaceFirst emptyCell fingerprint (n.alternate r home fingerprint)]
    | _ => []
  | .error _ => []

/-- The changes of placements in turn, up to the first that fails. -/
def placeAllEdits (r : Rules σ) (n : Nest σ) : List (Nat × UInt64) → List Edit
  | [] => []
  | (bucket, fingerprint) :: entries => n.storeEdits r fingerprint bucket [bucket] ++
    match n.place r fingerprint bucket with
    | .ok ⟨true, n, _⟩ => n.placeAllEdits r entries
    | _ => []

/-- What changes a nest. -/
inductive Deed where
  | insert (key : Key)
  | erase (key : Key)
  | merge (other : Table)
  | clear

def perform (r : Rules σ) (n : Nest σ) : Deed → Checked (Nest σ)
  | .insert key => do
    let o ← n.insert r key
    pure o.state
  | .erase key => do
    let (_, n) ← n.erase r key
    pure n
  | .merge other => do
    let o ← n.merge r other
    pure o.state
  | .clear => pure n.clear

def performAll (r : Rules σ) (n : Nest σ) : List Deed → Checked (Nest σ)
  | [] => pure n
  | deed :: deeds => do
    let n ← n.perform r deed
    n.performAll r deeds

/-- The changes that a deed makes to the table, in their order. -/
def edits (r : Rules σ) (n : Nest σ) : Deed → List Edit
  | .insert key => n.insertEdits r key
  | .erase key => n.eraseEdits r key
  | .merge other => n.placeAllEdits r other.entries
  | .clear => [.clear]

/-- The changes of a sequence of deeds. -/
def script (r : Rules σ) (n : Nest σ) : List Deed → List Edit
  | [] => []
  | deed :: deeds => n.edits r deed ++
    match n.perform r deed with
    | .ok n => n.script r deeds
    | .error _ => []

end Nest

/-! ## Recorded runs

Each of these is the operation of the same name, with the calls of a table replaced by recorded ones. -/

/-- A run that takes down the changes that it asks of a table. -/
abbrev Recorded (α : Type) : Type := WriterT (List Edit) Checked α

namespace Recorded

variable {σ : Type}

def exchange (t : Table) (value : UInt64) (bucket slot : Nat) : Recorded (UInt64 × Table) := do
  tell [.exchange value bucket slot]
  t.exchange value bucket slot

def put (t : Table) (fingerprint : UInt64) (bucket : Nat) : Recorded (Option Table) := do
  tell [.put fingerprint bucket]
  t.put fingerprint bucket

def replaceFirst (t : Table) (new old : UInt64) (bucket : Nat) : Recorded (Option Table) := do
  tell [.replaceFirst new old bucket]
  t.replaceFirst new old bucket

def evict (r : Rules σ) (n : Nest σ) (fingerprint : UInt64) (bucket : Nat) :
    Recorded (Eviction × Nest σ) := do
  let (slot, picker) ← r.pick n.picker n.table.shape.slots
  let (victim, table) ← exchange n.table fingerprint bucket slot
  pure (⟨bucket, slot, victim⟩, ⟨table, picker⟩)

def chase (r : Rules σ) : (left : Nat) → Nest σ → (fingerprint : UInt64) → (bucket : Nat) →
    (trail : List Eviction) → Recorded (Chain σ)
  | 0, n, _, _, trail => pure (.exhausted trail n)
  | left + 1, n, fingerprint, bucket, trail => do
    let (eviction, n) ← evict r n fingerprint bucket
    let alternate := n.alternate r bucket eviction.victim
    match ← put n.table eviction.victim alternate with
    | some table => pure (.settled (trail.length + 1) { n with table })
    | none => chase r left n eviction.victim alternate (eviction :: trail)

def undo : List Eviction → Table → Recorded Table
  | [], table => pure table
  | eviction :: evictions, table => do
    let (_, table) ← exchange table eviction.victim eviction.bucket eviction.slot
    undo evictions table

def relocate (r : Rules σ) (n : Nest σ) (fingerprint : UInt64) (bucket : Nat) :
    Recorded (Outcome (Nest σ)) := do
  match ← chase r r.budget n fingerprint bucket [] with
  | .settled attempts n => pure ⟨true, n, [.relocated attempts]⟩
  | .exhausted evictions n =>
    let table ← undo evictions n.table
    pure ⟨false, { n with table }, [.exhausted r.budget table.load]⟩

def insert (r : Rules σ) (n : Nest σ) (key : Key) : Recorded (Outcome (Nest σ)) := do
  let (fingerprint, home) ← n.locate r key
  match ← put n.table fingerprint home with
  | some table => pure ⟨true, { n with table }, []⟩
  | none =>
    match ← put n.table fingerprint (n.alternate r home fingerprint) with
    | some table => pure ⟨true, { n with table }, []⟩
    | none => relocate r n fingerprint home

def erase (r : Rules σ) (n : Nest σ) (key : Key) : Recorded (Bool × Nest σ) := do
  let (fingerprint, home) ← n.locate r key
  match ← replaceFirst n.table emptyCell fingerprint home with
  | some table => pure (true, { n with table })
  | none =>
    match ← replaceFirst n.table emptyCell fingerprint (n.alternate r home fingerprint) with
    | some table => pure (true, { n with table })
    | none => pure (false, n)

def place (r : Rules σ) (n : Nest σ) (fingerprint : UInt64) (bucket : Nat) :
    Recorded (Outcome (Nest σ)) := do
  match ← put n.table fingerprint bucket with
  | some table => pure ⟨true, { n with table }, []⟩
  | none => relocate r n fingerprint bucket

def placeAll (r : Rules σ) (total : Nat) : (merged : Nat) → Nest σ → List (Nat × UInt64) →
    Recorded (Outcome (Nest σ))
  | _, n, [] => pure ⟨true, n, []⟩
  | merged, n, (bucket, fingerprint) :: entries => do
    let first ← place r n fingerprint bucket
    if first.done then
      let rest ← placeAll r total (merged + 1) first.state entries
      pure { rest with events := first.events ++ rest.events }
    else
      let stopped := .mergeStopped merged (total - merged) first.state.table.load
      pure { first with events := first.events ++ [stopped] }

def perform (r : Rules σ) (n : Nest σ) : Nest.Deed → Recorded (Nest σ)
  | .insert key => do
    let o ← insert r n key
    pure o.state
  | .erase key => do
    let (_, n) ← erase r n key
    pure n
  | .merge other => do
    let o ← placeAll r other.count 0 n other.entries
    pure o.state
  | .clear => do
    tell [.clear]
    pure n.clear

def performAll (r : Rules σ) (n : Nest σ) : List Nest.Deed → Recorded (Nest σ)
  | [] => pure n
  | deed :: deeds => do
    let n ← perform r n deed
    performAll r n deeds

/-! ## What a recorded run tells -/

section

variable {α β : Type}

/-- The recorded run is the run, and the changes that it takes down are these. -/
def Tells (recorded : Recorded α) (run : Checked α) (edits : List Edit) : Prop :=
  recorded.run = run.map fun a => (a, edits)

theorem tells_pure (a : α) : Tells (pure a) (pure a) [] := rfl

theorem tells_lift (run : Checked α) : Tells (liftM run) run [] := by
  cases run <;> rfl

/-- One step after another. Nothing is asked of a step that fails, since what it took down is lost. -/
theorem Tells.bind {recorded : Recorded α} {run : Checked α} {edits whole : List Edit}
    {f : α → Recorded β} {g : α → Checked β} (first : Tells recorded run edits)
    (second : ∀ a, run = .ok a → ∃ rest, Tells (f a) (g a) rest ∧ whole = edits ++ rest) :
    Tells (recorded >>= f) (run >>= g) whole := by
  show (recorded.run >>= fun (a, told) => (fun (b, more) => (b, told ++ more)) <$> (f a).run) = _
  rw [first]
  cases run with
  | error => rfl
  | ok a =>
    obtain ⟨rest, tells, rfl⟩ := second a rfl
    show (fun (b, more) => (b, edits ++ more)) <$> (f a).run = (g a).map _
    rw [tells]
    cases g a <;> rfl

theorem tells_tell (e : Edit) : Tells (tell [e]) (pure ⟨⟩) [e] := rfl

/-- A call that is taken down when it is made. -/
theorem tells_call (e : Edit) (run : Checked α) : Tells (do tell [e]; liftM run) run [e] :=
  (tells_tell e).bind fun _ _ => ⟨[], tells_lift run, rfl⟩

end

theorem tells_exchange (t : Table) (value : UInt64) (bucket slot : Nat) :
    Tells (exchange t value bucket slot) (t.exchange value bucket slot)
      [.exchange value bucket slot] := tells_call _ _

theorem tells_put (t : Table) (fingerprint : UInt64) (bucket : Nat) :
    Tells (put t fingerprint bucket) (t.put fingerprint bucket) [.put fingerprint bucket] :=
  tells_call _ _

theorem tells_replaceFirst (t : Table) (new old : UInt64) (bucket : Nat) :
    Tells (replaceFirst t new old bucket) (t.replaceFirst new old bucket)
      [.replaceFirst new old bucket] := tells_call _ _

variable (r : Rules σ)

theorem tells_evict (n : Nest σ) (fingerprint : UInt64) (bucket : Nat) :
    ∃ edits, Tells (evict r n fingerprint bucket) (n.evict r fingerprint bucket) edits ∧
      ∀ e next, n.evict r fingerprint bucket = .ok (e, next) →
        edits = [.exchange fingerprint bucket e.slot] := by
  cases picked : r.pick n.picker n.table.shape.slots with
  | error =>
    unfold evict Nest.evict
    rw [picked]
    exact ⟨[], (tells_lift _).bind nofun, nofun⟩
  | ok pick =>
    refine ⟨[.exchange fingerprint bucket pick.1], ?_, fun e next run => ?_⟩
    · refine (tells_lift _).bind fun _ same => ⟨_, ?_, rfl⟩
      cases picked.symm.trans same
      exact (tells_exchange n.table fingerprint bucket pick.1).bind fun _ _ => ⟨[], tells_pure _, rfl⟩
    · obtain ⟨_, same, run⟩ := bind_eq_ok_iff.mp run
      obtain ⟨_, -, run⟩ := bind_eq_ok_iff.mp run
      cases picked.symm.trans same
      cases run
      rfl

theorem tells_chase : ∀ (left : Nat) (n : Nest σ) (fingerprint : UInt64) (bucket : Nat)
    (trail : List Eviction), Tells (chase r left n fingerprint bucket trail)
      (Nest.chase r left n fingerprint bucket trail) (Nest.chaseEdits r left n fingerprint bucket) := by
  intro left
  induction left with
  | zero => exact fun _ _ _ _ => tells_pure _
  | succ left ih =>
    intro n fingerprint bucket trail
    obtain ⟨edits, first, told⟩ := tells_evict r n fingerprint bucket
    refine first.bind fun (e, next) evicted => ?_
    rw [told e next evicted, Nest.chaseEdits, evicted]
    refine ⟨_, (tells_put next.table e.victim _).bind fun found stored => ?_, rfl⟩
    rw [stored]
    cases found with
    | some table => exact ⟨[], tells_pure _, rfl⟩
    | none => exact ⟨_, ih _ _ _ _, rfl⟩

theorem tells_undo : ∀ (evictions : List Eviction) (t : Table),
    Tells (undo evictions t) (Nest.undo evictions t) (Nest.undoEdits evictions) := by
  intro evictions
  induction evictions with
  | nil => exact fun t => tells_pure t
  | cons e evictions ih => exact fun t => (tells_exchange t _ _ _).bind fun _ _ => ⟨_, ih _, rfl⟩

variable (n : Nest σ)

theorem tells_relocate (fingerprint : UInt64) (bucket : Nat) :
    Tells (relocate r n fingerprint bucket) (n.relocate r fingerprint bucket)
      (n.relocateEdits r fingerprint bucket) := by
  refine (tells_chase r r.budget n fingerprint bucket []).bind fun chain chased => ?_
  rw [Nest.relocateEdits, chased]
  cases chain with
  | settled attempts last => exact ⟨[], tells_pure _, rfl⟩
  | exhausted evictions last =>
    refine ⟨_, (tells_undo evictions last.table).bind fun table _ => ?_, rfl⟩
    exact ⟨[], tells_pure _, (List.append_nil _).symm⟩

/-- **An insertion makes the changes of its script**, each when its turn comes. -/
theorem tells_insert (key : Key) : Tells (insert r n key) (n.insert r key) (n.insertEdits r key) := by
  refine (tells_lift (n.locate r key)).bind fun (fingerprint, home) located => ?_
  rw [Nest.insertEdits, located]
  refine ⟨_, (tells_put n.table fingerprint home).bind fun first stored => ?_, rfl⟩
  rw [Nest.storeEdits, stored]
  cases first with
  | some table => exact ⟨[], tells_pure _, rfl⟩
  | none =>
    refine ⟨_, (tells_put n.table fingerprint _).bind fun second stored => ?_, rfl⟩
    rw [Nest.storeEdits, stored]
    cases second with
    | some table => exact ⟨[], tells_pure _, rfl⟩
    | none => exact ⟨_, tells_relocate r n fingerprint home, rfl⟩

theorem tells_erase (key : Key) : Tells (erase r n key) (n.erase r key) (n.eraseEdits r key) := by
  refine (tells_lift (n.locate r key)).bind fun (fingerprint, home) located => ?_
  rw [Nest.eraseEdits, located]
  refine ⟨_, (tells_replaceFirst n.table emptyCell fingerprint home).bind fun first stored => ?_, rfl⟩
  rw [stored]
  cases first with
  | some table => exact ⟨[], tells_pure _, rfl⟩
  | none =>
    refine ⟨_, (tells_replaceFirst n.table emptyCell fingerprint _).bind fun second _ => ?_, rfl⟩
    cases second with
    | some table => exact ⟨[], tells_pure _, rfl⟩
    | none => exact ⟨[], tells_pure _, rfl⟩

theorem tells_place (fingerprint : UInt64) (bucket : Nat) :
    Tells (place r n fingerprint bucket) (n.place r fingerprint bucket)
      (n.storeEdits r fingerprint bucket [bucket]) := by
  refine (tells_put n.table fingerprint bucket).bind fun found stored => ?_
  rw [Nest.storeEdits, stored]
  cases found with
  | some table => exact ⟨[], tells_pure _, rfl⟩
  | none => exact ⟨_, tells_relocate r n fingerprint bucket, rfl⟩

theorem tells_placeAll (total : Nat) : ∀ (entries : List (Nat × UInt64)) (merged : Nat) (n : Nest σ),
    Tells (placeAll r total merged n entries) (Nest.placeAll r total merged n entries)
      (n.placeAllEdits r entries) := by
  intro entries
  induction entries with
  | nil => exact fun _ _ => tells_pure _
  | cons entry entries ih =>
    intro merged n
    obtain ⟨bucket, fingerprint⟩ := entry
    refine (tells_place r n fingerprint bucket).bind fun first placed => ?_
    obtain ⟨done, state, events⟩ := first
    rw [Nest.placeAllEdits, placed]
    cases done with
    | false => exact ⟨[], tells_pure _, rfl⟩
    | true =>
      refine ⟨_, (ih (merged + 1) state).bind fun rest _ => ?_, rfl⟩
      exact ⟨[], tells_pure _, (List.append_nil _).symm⟩

theorem tells_perform (deed : Nest.Deed) :
    Tells (perform r n deed) (n.perform r deed) (n.edits r deed) := by
  have alone : ∀ {edits : List Edit}, edits = edits ++ [] := (List.append_nil _).symm
  cases deed with
  | insert key => exact (tells_insert r n key).bind fun _ _ => ⟨[], tells_pure _, alone⟩
  | erase key => exact (tells_erase r n key).bind fun _ _ => ⟨[], tells_pure _, alone⟩
  | merge other =>
    exact (tells_placeAll r other.count other.entries 0 n).bind fun _ _ => ⟨[], tells_pure _, alone⟩
  | clear => exact tells_call .clear (pure n.clear)

/-- **A sequence of deeds makes the changes of its script.** -/
theorem tells_performAll : ∀ (deeds : List Nest.Deed) (n : Nest σ),
    Tells (performAll r n deeds) (n.performAll r deeds) (n.script r deeds) := by
  intro deeds
  induction deeds with
  | nil => exact fun n => tells_pure n
  | cons deed deeds ih =>
    intro n
    refine (tells_perform r n deed).bind fun next performed => ?_
    rw [Nest.script, performed]
    exact ⟨_, ih next, rfl⟩

end Recorded

end Cuckoo

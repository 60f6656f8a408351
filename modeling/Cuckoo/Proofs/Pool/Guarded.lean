import Cuckoo.Proofs.Filter.Guarded
import Cuckoo.Proofs.Pool.Sound

/-!
# A session never gets stuck

A session with a pool in bounded numbers: `run?` carries out the same commands as `run`, but every
number on the way has to be in the range of its type, every index inside, and every condition that an
operation relies on is looked at. Such a run has no way to go on where one of these fails.

**It never fails.** The commands come in any order and from anywhere, so a filter may be one that was
read from bytes that somebody made up; what carries the proof through is that every filter of a pool is
sound, which the checks made when it is built or read are enough for. Of the objects it is asked that their
bytes can be counted, each on its own.
-/

set_option autoImplicit false

namespace Cuckoo.Pool

open Hash Runs

/-- The objects that a command hashes. -/
def Command.items : Command → List Item
  | .insert _ x | .contains _ x | .erase _ x => [x]
  | .insertEach _ xs | .containsEach _ xs | .eraseEach _ xs => xs
  | .insertAll _ xs | .containsAll _ xs | .eraseAll _ xs => xs
  | _ => []

/-- The bytes of every object can be counted. -/
def Command.Countable (command : Command) : Prop := ∀ x ∈ command.items, x.Countable

instance (command : Command) : Decidable command.Countable := List.decidableBAll _ _

/-- Runs a step on the filter of a name. -/
def withFilter? (p : Pool) (name : String) (step? : Filter → Option (Reply × Pool)) :
    Option (Reply × Pool) :=
  match p.get? name with
  | some f => step? f
  | none => (p.answer (.unknown name)).toOption

/-- Carries out a command in bounded numbers. Only building is taken as it is, because a filter is in use
from then on. -/
def step? (p : Pool) : Command → Option (Reply × Pool)
  | .build name blueprint => (p.store name blueprint.build).toOption
  | .copy name source => p.withFilter? source fun f => (p.store name (.ok f)).toOption
  | .decode name bytes seed => do
    let made ← (Filter.decode? bytes (seed.getD defaultSeed)).run
    (p.store name made).toOption
  | .reload name source seed => p.withFilter? source fun f => do
    let bytes ← f.encode?
    let made ← (Filter.decode? bytes (seed.getD defaultSeed)).run
    (p.store name made).toOption
  | .same name other => p.withFilter? name fun f => p.withFilter? other fun g => do
    let same ← f.sameContents? g
    (p.answer (.flag same)).toOption
  | .compatible name other => p.withFilter? name fun f => p.withFilter? other fun g =>
    (p.answer (.flag (compatible name other f g))).toOption
  | .absorb name other => p.withFilter? name fun f => p.withFilter? other fun g =>
    if name = other then (p.answer (.failure (.incompatible f.describe g.describe))).toOption
    else do
      match ← f.absorb? g with
      | .ok outcome => (p.settle name outcome).toOption
      | .error cause => (p.answer (.failure cause)).toOption
  | .insert name x => p.withFilter? name fun f => do
    let outcome ← f.insert? x
    (p.settle name outcome).toOption
  | .contains name x => p.withFilter? name fun f => do
    let found ← f.contains? x
    (p.answer (.flag found)).toOption
  | .erase name x => p.withFilter? name fun f => do
    let (found, f) ← f.erase? x
    ((p.set name f).answer (.flag found)).toOption
  | .insertEach name xs => p.withFilter? name fun f => do
    let (flags, outcome) ← f.insertEach? xs
    pure (⟨.flags flags, outcome.events⟩, p.set name outcome.state)
  | .containsEach name xs => p.withFilter? name fun f => do
    let flags ← f.containsEach? xs
    (p.answer (.flags flags)).toOption
  | .eraseEach name xs => p.withFilter? name fun f => do
    let (flags, f) ← f.eraseEach? xs
    ((p.set name f).answer (.flags flags)).toOption
  | .insertAll name xs => p.withFilter? name fun f => do
    let outcome ← f.insertAll? xs
    (p.settle name outcome).toOption
  | .containsAll name xs => p.withFilter? name fun f => do
    let found ← f.containsAll? xs
    (p.answer (.flag found)).toOption
  | .eraseAll name xs => p.withFilter? name fun f => do
    let (found, f) ← f.eraseAll? xs
    ((p.set name f).answer (.flag found)).toOption
  | .clear name => p.withFilter? name fun f => ((p.set name f.clear).answer .nothing).toOption
  | .inspect name => p.withFilter? name fun f => (p.answer (.filter f)).toOption
  | .encode name => p.withFilter? name fun f => do
    let bytes ← f.encode?
    (p.answer (.bytes bytes)).toOption

def run? (p : Pool) : List Command → Option (List Reply × Pool)
  | [] => pure ([], p)
  | command :: commands => do
    let (reply, p) ← p.step? command
    let (replies, p) ← p.run? commands
    pure (reply :: replies, p)

/-! ## One command -/

/-- What every command leaves behind. -/
def SoundAfter (next : Reply × Pool) : Prop := next.2.Sound

section

variable {p : Pool} (s : p.Sound)
include s

theorem Sound.keepsUp_answer (a : Answer) :
    KeepsUp (p.answer a).toOption (p.answer a) SoundAfter := keepsUp_some s

theorem Sound.keepsUp_store {made : Except Failure Filter} (name : String)
    (h : ∀ f, made = .ok f → f.Sound) :
    KeepsUp (p.store name made).toOption (p.store name made) SoundAfter := by
  cases made with
  | ok f => exact keepsUp_some (s.set (h f rfl) name)
  | error cause => exact s.keepsUp_answer _

theorem Sound.keepsUp_settle {o : Outcome Filter} (after : o.state.Sound) (name : String) :
    KeepsUp (p.settle name o).toOption (p.settle name o) SoundAfter :=
  keepsUp_some (s.set after name)

theorem Sound.keepsUp_withFilter {name : String} {step? : Filter → Option (Reply × Pool)}
    {step : Filter → Checked (Reply × Pool)}
    (h : ∀ f, f.Sound → KeepsUp (step? f) (step f) SoundAfter) :
    KeepsUp (p.withFilter? name step?) (p.withFilter name step) SoundAfter := by
  unfold withFilter? withFilter
  cases found : p.get? name with
  | none => exact s.keepsUp_answer _
  | some f => exact h f (s found)

theorem Sound.keepsUp_decoded {bytes : List UInt8} {seed : UInt64} (name : String) :
    KeepsUp ((Filter.decode? bytes seed).run >>= fun made => (p.store name made).toOption)
      (p.store name (Filter.decode bytes seed)) SoundAfter := by
  have never_stuck : (Filter.decode? bytes seed).run = some (Filter.decode bytes seed) := by
    rw [Filter.decode?_eq]
    rfl
  exact KeepsUp.after never_stuck (s.keepsUp_store name fun f made => (Filter.sound_of_decode made).1)

/-- **A command on a sound pool is not stuck.** -/
theorem Sound.keepsUp_step {command : Command} (countable : command.Countable) :
    KeepsUp (p.step? command) (p.step command) SoundAfter := by
  cases command with
  | build name blueprint => exact s.keepsUp_store name fun f => Blueprint.sound_of_build
  | copy name source =>
    refine s.keepsUp_withFilter fun f sound => s.keepsUp_store name ?_
    intro g made
    cases made
    exact sound
  | decode name bytes seed => exact s.keepsUp_decoded name
  | reload name source seed =>
    refine s.keepsUp_withFilter fun f sound => ?_
    exact KeepsUp.after sound.encode?_eq (s.keepsUp_decoded name)
  | same name other =>
    refine s.keepsUp_withFilter fun f sound => s.keepsUp_withFilter fun g sound' => ?_
    exact KeepsUp.after (sound.sameContents?_eq sound') (s.keepsUp_answer _)
  | compatible name other =>
    exact s.keepsUp_withFilter fun f _ => s.keepsUp_withFilter fun g _ => s.keepsUp_answer _
  | absorb name other =>
    refine s.keepsUp_withFilter fun f sound => s.keepsUp_withFilter fun g sound' => ?_
    refine KeepsUp.ite (fun _ => s.keepsUp_answer _) fun _ => ?_
    refine (sound.keepsUp_absorb sound').bind fun made after => ?_
    cases made with
    | ok outcome => exact s.keepsUp_settle (after outcome rfl) name
    | error cause => exact s.keepsUp_answer _
  | insert name x =>
    have counted : x.Countable := countable x List.mem_cons_self
    refine s.keepsUp_withFilter fun f sound => ?_
    exact (sound.keepsUp_insert counted).bind fun _ after => s.keepsUp_settle after name
  | contains name x =>
    have counted : x.Countable := countable x List.mem_cons_self
    refine s.keepsUp_withFilter fun f sound => ?_
    exact (sound.keepsUp_contains counted).bind fun _ _ => s.keepsUp_answer _
  | erase name x =>
    have counted : x.Countable := countable x List.mem_cons_self
    refine s.keepsUp_withFilter fun f sound => ?_
    exact (sound.keepsUp_erase counted).bind fun _ after => (s.set after name).keepsUp_answer _
  | insertEach name xs =>
    refine s.keepsUp_withFilter fun f sound => ?_
    exact (Filter.Sound.keepsUp_insertEach countable sound).bind fun _ after =>
      keepsUp_some (s.set after name)
  | containsEach name xs =>
    refine s.keepsUp_withFilter fun f sound => ?_
    exact (sound.keepsUp_containsEach countable).bind fun _ _ => s.keepsUp_answer _
  | eraseEach name xs =>
    refine s.keepsUp_withFilter fun f sound => ?_
    exact (Filter.Sound.keepsUp_eraseEach countable sound).bind fun _ after =>
      (s.set after name).keepsUp_answer _
  | insertAll name xs =>
    refine s.keepsUp_withFilter fun f sound => ?_
    exact (Filter.Sound.keepsUp_insertAll countable sound).bind fun _ after => s.keepsUp_settle after name
  | containsAll name xs =>
    refine s.keepsUp_withFilter fun f sound => ?_
    exact (sound.keepsUp_containsAll countable).bind fun _ _ => s.keepsUp_answer _
  | eraseAll name xs =>
    refine s.keepsUp_withFilter fun f sound => ?_
    exact (Filter.Sound.keepsUp_eraseAll countable sound).bind fun _ after =>
      (s.set after name).keepsUp_answer _
  | clear name =>
    exact s.keepsUp_withFilter fun f sound => (s.set sound.clear name).keepsUp_answer _
  | inspect name => exact s.keepsUp_withFilter fun f _ => s.keepsUp_answer _
  | encode name =>
    refine s.keepsUp_withFilter fun f sound => ?_
    exact KeepsUp.after sound.encode?_eq (s.keepsUp_answer _)

end

/-! ## Whole sessions -/

theorem Sound.keepsUp_run : ∀ {commands : List Command} {p : Pool},
    (∀ command ∈ commands, command.Countable) → p.Sound →
      KeepsUp (p.run? commands) (p.run commands) fun next => next.2.Sound := by
  intro commands
  induction commands with
  | nil => exact fun _ s => keepsUp_some s
  | cons command commands ih =>
    intro p countable s
    obtain ⟨first, others⟩ := List.forall_mem_cons.mp countable
    refine (s.keepsUp_step first).bind fun (reply, next) s' => ?_
    exact (ih others s').bind fun _ s'' => keepsUp_some s''

/-- **No session gets stuck.** Where the bytes of every object can be counted, every command is carried out
in bounded numbers as in unbounded ones, hashing included, and every filter that is there at the end has
its buckets, victims and spans in range. Neither hash gets stuck on its own: not that of an object, and
not that of a number. -/
theorem never_stuck :
    (∀ commands : List Command, (∀ command ∈ commands, ∀ x ∈ command.items, x.Countable) →
      ∃ replies p,
        Pool.empty.run commands = .ok (replies, p) ∧ Pool.empty.run? commands = some (replies, p) ∧
        ∀ (name : String) (f : Filter), p.get? name = some f → f.InBounds) ∧
    (∀ (seed : UInt64) (x : Item), x.pieces.flatten.length < UInt64.size →
      x.key? seed = some (x.key seed)) ∧
    ∀ value : Int32, int32? value = some (int32 value) := by
  refine ⟨fun commands countable => ?_, fun seed x small => ?_, int32?_eq⟩
  · obtain ⟨replies, p, run, -⟩ := sound_empty.exists_run commands
    obtain ⟨found, sound⟩ := Sound.keepsUp_run countable sound_empty _ run
    exact ⟨replies, p, run, found, fun name f here => (sound here).inBounds⟩
  · exact Item.Countable.key?_eq small seed

/-- One filter with the most buckets that odd offsets allow, and a small one that is used. -/
def largeAndSmall : List Command :=
  [.build "a" ⟨.dimensions ⟨0x7ffffffffffffffe, 2, 1⟩, .parityOffset, 7, 5, 2⟩,
    .build "b" ⟨.dimensions ⟨4, 2, 8⟩, .xor, 7, 5, 2⟩, .insert "b" (.int 4 1), .erase "b" (.int 4 1),
    .encode "b"]

/-- In the last bucket of the large filter, where the sum of a bucket and an offset may leave the signed
range, a fingerprint still has its other bucket. Three bytes that wait for their block and twenty that
complete it are hashed as well as a number is. -/
theorem last_bucket_in_bounds : ∃ replies p f,
    Pool.empty.run? largeAndSmall = some (replies, p) ∧ p.get? "a" = some f ∧ f.InBounds ∧
    (∃ other, f.nest.alternate? f.scheme 0x7ffffffffffffffd 1 = some other ∧
      other < 0x7ffffffffffffffe) ∧
    Item.key? 7 (.int 4 1) = some (Item.key 7 (.int 4 1)) ∧
    Item.key? 7 (.raw [[1, 2, 3], List.replicate 20 0]) =
      some (Item.key 7 (.raw [[1, 2, 3], List.replicate 20 0])) := by
  obtain ⟨sessions, hashing, -⟩ := never_stuck
  obtain ⟨replies, p, run, run', bounds⟩ := sessions largeAndSmall (by decide)
  obtain ⟨p', f, reached, found, shape⟩ : ∃ p' f,
      (Pool.empty.run largeAndSmall).map Prod.snd = .ok p' ∧ p'.get? "a" = some f ∧
      f.table.shape = ⟨0x7ffffffffffffffe, 2, 1⟩ := ⟨_, _, rfl, rfl, rfl⟩
  rw [run] at reached
  cases reached
  have inside := bounds "a" f found
  have last := inside.alternate 0x7ffffffffffffffd
  rw [shape] at last
  obtain ⟨other, -, moved, below⟩ := last (by decide) 1
  exact ⟨replies, p, f, run', found, inside, ⟨other, moved, below⟩, hashing 7 _ (by decide),
    hashing 7 _ (by decide)⟩

end Cuckoo.Pool

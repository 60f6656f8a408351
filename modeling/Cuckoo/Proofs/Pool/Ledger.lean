import Cuckoo.Proofs.Pool.Sound

/-!
# No false negatives

Whoever uses a pool can keep a ledger of what they have put into each filter, from the commands and
their answers alone. **As long as only objects are deleted that the ledger has, every object that it
has is found**, whatever else happened in between: collisions, evictions, insertions that failed,
merges that stopped half-way, copies and filters read back from bytes.

The invariant is that every filter backs the objects of its ledger (`Backed`). It is kept by one
command after another; what each of them does to the objects that a filter backs was said before.
-/

set_option autoImplicit false

namespace Cuckoo.Pool

open Hash Runs

/-- For each name, how often each object has been put into the filter of this name. -/
def Ledger : Type := String → Multiset Item

namespace Ledger

def blank : Ledger := fun _ => 0

def turn (l : Ledger) (name : String) (page : Multiset Item) : Ledger :=
  fun other => if other = name then page else l other

/-- Only what the ledger has may be deleted. -/
def Allows (l : Ledger) : Command → Prop
  | .erase name x => x ∈ l name
  | .eraseEach name xs => (xs : Multiset Item) ≤ l name
  | .eraseAll name xs => (xs : Multiset Item) ≤ l name
  | _ => True

open Classical in
/-- The ledger after a command and its answer. An object is entered if it was added, and crossed out
if it was deleted. A filter that is copied or read back with its seed takes its page along, a filter
that is merged into another one adds its page there, and a new or emptied filter starts a blank one. -/
noncomputable def after (l : Ledger) (p : Pool) : Command → Answer → Ledger
  | .build name _, .filter _ => l.turn name 0
  | .copy name source, .filter _ => l.turn name (l source)
  | .decode name _ _, .filter _ => l.turn name 0
  | .reload name source _, .filter g =>
    l.turn name (if (p.get? source).map Filter.seed = some g.seed then l source else 0)
  | .absorb name other, .flag true => l.turn name (l name + l other)
  | .insert name x, .flag true => l.turn name (x ::ₘ l name)
  | .insertEach name xs, .flags flags => l.turn name (l name + Filter.flagged xs flags)
  | .insertAll name xs, .flag _ =>
    l.turn name (l name + ((p.get? name).map fun f => f.stored xs).getD [])
  | .erase name x, .flag _ => l.turn name ((l name).erase x)
  | .eraseEach name xs, .flags _ => l.turn name (l name - xs)
  | .eraseAll name xs, .flag _ => l.turn name (l name - xs)
  | .clear name, .nothing => l.turn name 0
  | _, _ => l

end Ledger

/-- The pools that can be reached, each with the ledger that was kept on the way, when only objects are
deleted that the ledger has. -/
inductive Booked : Pool → Ledger → Prop
  | start : Booked Pool.empty Ledger.blank
  | step {p p' : Pool} {l : Ledger} {command : Command} {reply : Reply} (before : Booked p l)
      (allowed : l.Allows command) (run : p.step command = .ok (reply, p')) :
    Booked p' (l.after p command reply.answer)

def Backed (p : Pool) (l : Ledger) : Prop :=
  ∀ ⦃name : String⦄ ⦃f : Filter⦄, p.get? name = some f → f.Backs (l name)

section

variable {p p' : Pool} {l : Ledger} (b : Backed p l)
include b

theorem Backed.sound : p.Sound := fun _ _ h => (b h).sound

theorem Backed.set {f : Filter} {page : Multiset Item} (new : f.Backs page) (name : String) :
    Backed (p.set name f) (l.turn name page) := by
  intro other g h
  rw [get?_set] at h
  unfold Ledger.turn
  by_cases same : other = name
  · rw [if_pos same] at h
    cases h
    rw [if_pos same]
    exact new
  · rw [if_neg same] at h
    rw [if_neg same]
    exact b h

theorem Backed.keep {name : String} {f : Filter} (new : f.Backs (l name)) :
    Backed (p.set name f) l := by
  have same : l.turn name (l name) = l := by
    funext other
    unfold Ledger.turn
    split
    next h => rw [h]
    next => rfl
  exact same ▸ b.set new name

/-- If there is no filter of the name, the command says so and nothing happens. -/
theorem Backed.of_withFilter {name : String} {step : Filter → Checked (Reply × Pool)} {reply : Reply}
    (run : p.withFilter name step = .ok (reply, p')) {after : Answer → Ledger}
    (unknown : after (.unknown name) = l)
    (known : ∀ f, p.get? name = some f → step f = .ok (reply, p') →
      Backed p' (after reply.answer)) : Backed p' (after reply.answer) := by
  cases found : p.get? name with
  | none =>
    rw [withFilter_of_none found] at run
    cases run
    exact unknown.symm ▸ b
  | some f =>
    rw [withFilter_of_some found] at run
    exact known f found run

/-- A filter that was made is backed by its page, or there is none and nothing happens. -/
theorem Backed.of_store {name : String} {made : Except Failure Filter} {reply : Reply}
    (run : p.store name made = .ok (reply, p')) {after : Answer → Ledger}
    (failed : ∀ cause, after (.failure cause) = l)
    (worked : ∀ f, made = .ok f → ∃ page, f.Backs page ∧ after (.filter f) = l.turn name page) :
    Backed p' (after reply.answer) := by
  cases made with
  | ok f =>
    cases run
    obtain ⟨page, backs, turned⟩ := worked f rfl
    rw [turned]
    exact b.set backs name
  | error cause =>
    cases run
    exact (failed cause).symm ▸ b

open Classical in
theorem Backed.owed {name : String} {f : Filter} (found : p.get? name = some f) {xs : List Item}
    (le : (xs : Multiset Item) ≤ l name) : f.Backs (xs + (l name - xs)) := by
  rw [Multiset.add_comm, Multiset.sub_add_cancel le]
  exact b found

open Classical in
/-- **Every command keeps the ledger backed**, as long as only objects are deleted that it has. -/
theorem Backed.step {command : Command} {reply : Reply} (allowed : l.Allows command)
    (run : p.step command = .ok (reply, p')) : Backed p' (l.after p command reply.answer) := by
  cases command with
  | build name blueprint =>
    refine b.of_store run (fun _ => rfl) ?_
    intro f made
    exact ⟨0, (Blueprint.sound_of_build made).backs_zero, rfl⟩
  | copy name source =>
    refine b.of_withFilter run rfl ?_
    intro f found run
    refine b.of_store run (fun _ => rfl) ?_
    intro g made
    cases made
    exact ⟨l source, b found, rfl⟩
  | decode name bytes seed =>
    refine b.of_store run (fun _ => rfl) ?_
    intro f made
    exact ⟨0, (Filter.sound_of_decode made).1.backs_zero, rfl⟩
  | reload name source seed =>
    refine b.of_withFilter run rfl ?_
    intro f found run
    refine b.of_store run (fun _ => rfl) ?_
    intro g made
    obtain ⟨sound, -⟩ := Filter.sound_of_decode made
    refine ⟨_, ?_, rfl⟩
    rw [found, Option.map_some]
    -- with another seed the fingerprints belong to other objects, and nothing is known of these
    by_cases same : f.seed = g.seed
    · obtain ⟨scheme, table⟩ := Filter.decode_encode (b found).sound made
      rw [if_pos (congrArg some same)]
      exact (b found).of_table_eq scheme same.symm table
    · rw [if_neg (fun h => same (Option.some.inj h))]
      exact sound.backs_zero
  | same name other =>
    refine b.of_withFilter run rfl ?_
    intro f _ run
    refine b.of_withFilter run rfl ?_
    intro g _ run
    cases run
    exact b
  | compatible name other =>
    refine b.of_withFilter run rfl ?_
    intro f _ run
    refine b.of_withFilter run rfl ?_
    intro g _ run
    cases run
    exact b
  | absorb name other =>
    refine b.of_withFilter run rfl ?_
    intro f hf run
    refine b.of_withFilter run rfl ?_
    intro g hg run
    by_cases same : name = other
    · rw [if_pos same] at run
      cases run
      exact b
    · rw [if_neg same] at run
      cases agrees : f.agrees g with
      | true =>
        obtain ⟨o, absorbed, -, backs⟩ := (b hf).absorb (b hg) agrees
        rw [absorbed] at run
        cases run
        show Backed _ (l.after p (.absorb name other) (.flag o.done))
        cases done : o.done with
        | true =>
          rw [done] at backs
          exact b.set backs name
        | false =>
          rw [done] at backs
          exact b.keep backs
      | false =>
        unfold Filter.absorb at run
        rw [agrees] at run
        cases run
        exact b
  | insert name x =>
    refine b.of_withFilter run rfl ?_
    intro f found run
    obtain ⟨o, inserted, -, backs⟩ := (b found).insert x
    rw [inserted] at run
    cases run
    -- whether the object is entered depends on the answer
    show Backed _ (l.after p (.insert name x) (.flag o.done))
    cases done : o.done with
    | true =>
      rw [done] at backs
      exact b.set backs name
    | false =>
      rw [done] at backs
      exact b.keep backs
  | contains name x =>
    refine b.of_withFilter run rfl ?_
    intro f _ run
    obtain ⟨_, _, run⟩ := bind_eq_ok_iff.mp run
    cases run
    exact b
  | erase name x =>
    refine b.of_withFilter run rfl ?_
    intro f found run
    have backs := b found
    have owed : l name = x ::ₘ (l name).erase x := (Multiset.cons_erase allowed).symm
    rw [owed] at backs
    obtain ⟨f', erased, -, backs⟩ := backs.erase
    rw [erased] at run
    cases run
    exact b.set backs name
  | insertEach name xs =>
    refine b.of_withFilter run rfl ?_
    intro f found run
    obtain ⟨flags, o, inserted, -, backs⟩ := Filter.Backs.insertEach xs (b found)
    rw [inserted] at run
    cases run
    exact b.set backs name
  | containsEach name xs =>
    refine b.of_withFilter run rfl ?_
    intro f _ run
    obtain ⟨_, _, run⟩ := bind_eq_ok_iff.mp run
    cases run
    exact b
  | eraseEach name xs =>
    refine b.of_withFilter run rfl ?_
    intro f found run
    obtain ⟨f', erased, -, backs⟩ := Filter.Backs.eraseEach xs (b.owed found allowed)
    rw [erased] at run
    cases run
    exact b.set backs name
  | insertAll name xs =>
    refine b.of_withFilter run rfl ?_
    intro f found run
    obtain ⟨o, inserted, -, backs⟩ := Filter.Backs.insertAll xs (b found)
    rw [inserted] at run
    cases run
    show Backed _ (l.turn name _)
    rw [found]
    exact b.set backs name
  | containsAll name xs =>
    refine b.of_withFilter run rfl ?_
    intro f _ run
    obtain ⟨_, _, run⟩ := bind_eq_ok_iff.mp run
    cases run
    exact b
  | eraseAll name xs =>
    refine b.of_withFilter run rfl ?_
    intro f found run
    obtain ⟨f', erased, -, backs⟩ := (b.owed found allowed).eraseAll
    rw [erased] at run
    cases run
    exact b.set backs name
  | clear name =>
    refine b.of_withFilter run rfl ?_
    intro f found run
    cases run
    exact b.set (b found).sound.clear.backs_zero name
  | inspect name =>
    refine b.of_withFilter run rfl ?_
    intro f _ run
    cases run
    exact b
  | encode name =>
    refine b.of_withFilter run rfl ?_
    intro f _ run
    cases run
    exact b

end

theorem Booked.backed {p : Pool} {l : Ledger} (booked : Booked p l) : Backed p l := by
  induction booked with
  | start => intro name f h; cases h
  | step _ allowed run ih => exact ih.step allowed run

/-- **No false negatives.** Whatever commands have been given, if only objects were deleted that the
ledger has, then the next command is carried out as well, every object that the ledger has is found,
and each of them can be deleted, one by one or several at a time. -/
theorem no_false_negatives {p : Pool} {l : Ledger} (booked : Booked p l) :
    (∀ command, ∃ reply p', p.step command = .ok (reply, p')) ∧
    ∀ {name : String} {f : Filter}, p.get? name = some f →
      (∀ x ∈ l name, p.step (.contains name x) = .ok (⟨.flag true, []⟩, p)) ∧
      (∀ x ∈ l name, ∃ p', p.step (.erase name x) = .ok (⟨.flag true, []⟩, p')) ∧
      (∀ xs : List Item, xs ≤ l name →
        ∃ p', p.step (.eraseEach name xs) = .ok (⟨.flags (xs.map fun _ => true), []⟩, p')) ∧
      ∀ xs : List Item, xs ≤ l name →
        ∃ p', p.step (.eraseAll name xs) = .ok (⟨.flag true, []⟩, p') := by
  have b := booked.backed
  constructor
  · intro command
    obtain ⟨reply, p', run, -⟩ := b.sound.exists_step command
    exact ⟨reply, p', run⟩
  · intro name f found
    refine ⟨?_, ?_, ?_, ?_⟩
    · intro x mem
      rw [Pool.step, withFilter_of_some found, (b found).contains mem]
      rfl
    · intro x mem
      obtain ⟨rest, owed⟩ := Multiset.exists_cons_of_mem mem
      obtain ⟨f', erased, -⟩ := (owed ▸ b found).erase
      refine ⟨p.set name f', ?_⟩
      rw [Pool.step, withFilter_of_some found, erased]
      rfl
    · intro xs le
      obtain ⟨f', erased, -⟩ := Filter.Backs.eraseEach xs (b.owed found le)
      refine ⟨p.set name f', ?_⟩
      rw [Pool.step, withFilter_of_some found, erased]
      rfl
    · intro xs le
      obtain ⟨f', erased, -⟩ := (b.owed found le).eraseAll
      refine ⟨p.set name f', ?_⟩
      rw [Pool.step, withFilter_of_some found, erased]
      rfl

theorem found_in_copy : ∃ p l, Booked p l ∧ l "b" = {Item.int 4 7} ∧
    p.step (.contains "b" (.int 4 7)) = .ok (⟨.flag true, []⟩, p) := by
  have built := @Booked.step _ _ _ (.build "a" ⟨.dimensions ⟨4, 2, 8⟩, .xor, 1, 1, 2⟩) _
    .start trivial rfl
  have added := @Booked.step _ _ _ (.insert "a" (.int 4 7)) ⟨.flag true, []⟩ built trivial rfl
  have copied := @Booked.step _ _ _ (.copy "b" "a") _ added trivial rfl
  have owned : Item.int 4 7 ∈ Item.int 4 7 ::ₘ (0 : Multiset Item) := Multiset.mem_cons_self _ _
  have deleted := @Booked.step _ _ _ (.erase "a" (.int 4 7)) ⟨.flag true, []⟩ copied owned rfl
  obtain ⟨-, facts⟩ := no_false_negatives deleted
  obtain ⟨found, -⟩ := @facts "b" _ rfl
  exact ⟨_, _, deleted, rfl, found (.int 4 7) owned⟩

end Cuckoo.Pool

import Cuckoo.Pool
import Cuckoo.Proofs.Filter.Reload

/-!
# Every command is carried out

The checked operations refuse what would be outside a table. **A pool never gets there**: its filters
are sound from the start, every command keeps them sound, and on sound filters no operation refuses.
-/

set_option autoImplicit false

namespace Cuckoo.Pool

open Hash Runs

def Sound (p : Pool) : Prop := ∀ ⦃name : String⦄ ⦃f : Filter⦄, p.get? name = some f → f.Sound

/-! ## Names -/

theorem lookup_filter_ne {name other : String} (h : other ≠ name) :
    ∀ filters : List (String × Filter),
      (filters.filter fun entry => entry.1 != name).lookup other = filters.lookup other := by
  intro filters
  induction filters with
  | nil => rfl
  | cons entry filters ih =>
    obtain ⟨key, f⟩ := entry
    rw [List.filter_cons, List.lookup_cons]
    by_cases same : key = name
    · have off : (other == key) = false := beq_eq_false_iff_ne.mpr (same ▸ h)
      rw [if_neg (by simp [same]), ih, off]
    · rw [if_pos (by simpa using same), List.lookup_cons, ih]

theorem get?_set (p : Pool) (name other : String) (f : Filter) :
    (p.set name f).get? other = if other = name then some f else p.get? other := by
  unfold get? set
  rw [List.lookup_cons]
  by_cases same : other = name
  · rw [if_pos same, beq_iff_eq.mpr same]
  · rw [if_neg same, beq_eq_false_iff_ne.mpr same]
    exact lookup_filter_ne same p.filters

theorem withFilter_of_some {p : Pool} {name : String} {f : Filter} (h : p.get? name = some f)
    (step : Filter → Checked (Reply × Pool)) : p.withFilter name step = step f := by
  unfold withFilter
  rw [h]

theorem withFilter_of_none {p : Pool} {name : String} (h : p.get? name = none)
    (step : Filter → Checked (Reply × Pool)) :
    p.withFilter name step = .ok (⟨.unknown name, []⟩, p) := by
  unfold withFilter
  rw [h]
  rfl

/-! ## Soundness -/

theorem sound_empty : Pool.empty.Sound := by
  intro name f h
  cases h

def Ends (run : Checked (Reply × Pool)) : Prop := ∃ reply p', run = .ok (reply, p') ∧ p'.Sound

section

variable {p : Pool} (s : p.Sound)
include s

theorem Sound.set {f : Filter} (sound : f.Sound) (name : String) : (p.set name f).Sound := by
  intro other g h
  rw [get?_set] at h
  by_cases same : other = name
  · rw [if_pos same] at h
    cases h
    exact sound
  · rw [if_neg same] at h
    exact s h

theorem Sound.ends_answer (a : Answer) : Ends (p.answer a) := ⟨_, p, rfl, s⟩

theorem Sound.ends_withFilter {name : String} {step : Filter → Checked (Reply × Pool)}
    (h : ∀ f, f.Sound → Ends (step f)) : Ends (p.withFilter name step) := by
  cases found : p.get? name with
  | none =>
    rw [withFilter_of_none found]
    exact s.ends_answer _
  | some f =>
    rw [withFilter_of_some found]
    exact h f (s found)

theorem Sound.ends_store {made : Except Failure Filter} (name : String)
    (h : ∀ f, made = .ok f → f.Sound) : Ends (p.store name made) := by
  cases made with
  | ok f => exact ⟨_, _, rfl, s.set (h f rfl) name⟩
  | error cause => exact s.ends_answer _

/-- **Every command is carried out** and leaves a sound pool. -/
theorem Sound.exists_step (command : Command) :
    ∃ reply p', p.step command = .ok (reply, p') ∧ p'.Sound := by
  show Ends (p.step command)
  cases command with
  | build name blueprint => exact s.ends_store name fun f => Blueprint.sound_of_build
  | copy name source =>
    refine s.ends_withFilter fun f sound => s.ends_store name ?_
    intro g made
    cases made
    exact sound
  | decode name bytes seed => exact s.ends_store name fun f made => (Filter.sound_of_decode made).1
  | reload name source seed =>
    exact s.ends_withFilter fun f _ => s.ends_store name fun g made => (Filter.sound_of_decode made).1
  | same name other =>
    exact s.ends_withFilter fun f _ => s.ends_withFilter fun g _ => s.ends_answer _
  | compatible name other =>
    exact s.ends_withFilter fun f _ => s.ends_withFilter fun g _ => s.ends_answer _
  | absorb name other =>
    refine s.ends_withFilter fun f sound => s.ends_withFilter fun g sound' => ?_
    by_cases same : name = other
    · rw [if_pos same]
      exact s.ends_answer _
    · rw [if_neg same]
      cases agrees : f.agrees g with
      | true =>
        obtain ⟨o, run, -, b⟩ := sound.backs_zero.absorb sound'.backs_zero agrees
        rw [run]
        exact ⟨_, _, rfl, s.set b.sound name⟩
      | false =>
        -- the filters differ in a setting, which is answered and not refused
        unfold Filter.absorb
        rw [agrees]
        exact s.ends_answer _
  | insert name x =>
    refine s.ends_withFilter fun f sound => ?_
    obtain ⟨o, run, -, b⟩ := sound.backs_zero.insert x
    rw [run]
    exact ⟨_, _, rfl, s.set b.sound name⟩
  | contains name x =>
    refine s.ends_withFilter fun f sound => ?_
    obtain ⟨found, run⟩ := sound.exists_contains x
    rw [run]
    exact s.ends_answer _
  | erase name x =>
    refine s.ends_withFilter fun f sound => ?_
    obtain ⟨found, f', run, sound'⟩ := sound.exists_erase x
    rw [run]
    exact ⟨_, _, rfl, s.set sound' name⟩
  | insertEach name xs =>
    refine s.ends_withFilter fun f sound => ?_
    obtain ⟨flags, o, run, -, b⟩ := Filter.Backs.insertEach xs sound.backs_zero
    rw [run]
    exact ⟨_, _, rfl, s.set b.sound name⟩
  | containsEach name xs =>
    refine s.ends_withFilter fun f sound => ?_
    obtain ⟨flags, run⟩ := sound.exists_containsEach xs
    rw [run]
    exact s.ends_answer _
  | eraseEach name xs =>
    refine s.ends_withFilter fun f sound => ?_
    obtain ⟨flags, f', run, sound'⟩ := Filter.Sound.exists_eraseEach xs sound
    rw [run]
    exact ⟨_, _, rfl, s.set sound' name⟩
  | insertAll name xs =>
    refine s.ends_withFilter fun f sound => ?_
    obtain ⟨o, run, -, b⟩ := Filter.Backs.insertAll xs sound.backs_zero
    rw [run]
    exact ⟨_, _, rfl, s.set b.sound name⟩
  | containsAll name xs =>
    refine s.ends_withFilter fun f sound => ?_
    obtain ⟨found, run⟩ := sound.exists_containsAll xs
    rw [run]
    exact s.ends_answer _
  | eraseAll name xs =>
    refine s.ends_withFilter fun f sound => ?_
    obtain ⟨flags, f', run, sound'⟩ := Filter.Sound.exists_eraseEach xs sound
    unfold Filter.eraseAll
    rw [run]
    exact ⟨_, _, rfl, s.set sound' name⟩
  | clear name => exact s.ends_withFilter fun f sound => ⟨_, _, rfl, s.set sound.clear name⟩
  | inspect name => exact s.ends_withFilter fun f _ => s.ends_answer _
  | encode name => exact s.ends_withFilter fun f _ => s.ends_answer _

end

theorem Sound.exists_run : ∀ (commands : List Command) {p : Pool}, p.Sound →
    ∃ replies p', p.run commands = .ok (replies, p') ∧ p'.Sound := by
  intro commands
  induction commands with
  | nil =>
    intro p s
    exact ⟨[], p, rfl, s⟩
  | cons command commands ih =>
    intro p s
    obtain ⟨reply, p₁, run, s₁⟩ := s.exists_step command
    obtain ⟨replies, p₂, more, s₂⟩ := ih s₁
    refine ⟨reply :: replies, p₂, ?_, s₂⟩
    rw [Pool.run, run, ok_bind]
    show (p₁.run commands >>= _) = _
    rw [more]
    rfl

theorem sound_of_run {commands : List Command} {replies : List Reply} {p : Pool}
    (run : Pool.empty.run commands = .ok (replies, p)) : p.Sound := by
  obtain ⟨_, _, run', s⟩ := sound_empty.exists_run commands
  cases run.symm.trans run'
  exact s

end Cuckoo.Pool

/-!
# Runs that may stop early

The checked operations and the fallible ones are both written in `Except`. A run in `Except` yields a
value exactly when each of its steps does; the lemmas here take such a run apart, one step at a time,
so that later proofs need not unfold the monad.

A run in `Option` is one that may get stuck: an index is outside, a number leaves its range. It `KeepsUp`
with a run in `Except` if it yields every value that this one yields. Such pairs of runs are put together
step by step, each step handing on what it promises of its value.
-/

set_option autoImplicit false

namespace Cuckoo

namespace Runs

variable {ε α β : Type}

@[simp] theorem ok_bind (a : α) (f : α → Except ε β) : (Except.ok a >>= f) = f a := rfl

@[simp] theorem error_bind (e : ε) (f : α → Except ε β) : (Except.error e >>= f) = .error e := rfl

@[simp] theorem throw_eq (e : ε) : (throw e : Except ε α) = .error e := rfl

@[simp] theorem pure_eq (a : α) : (pure a : Except ε α) = .ok a := rfl

/-- A run of two steps yields a value exactly when the first one does and the second one goes on from
there. -/
theorem bind_eq_ok_iff {x : Except ε α} {f : α → Except ε β} {b : β} :
    (x >>= f) = .ok b ↔ ∃ a, x = .ok a ∧ f a = .ok b := by
  cases x with
  | ok a => exact ⟨fun h => ⟨a, rfl, h⟩, fun ⟨_, ha, h⟩ => by cases ha; exact h⟩
  | error e => exact ⟨fun h => (by cases h), fun ⟨_, ha, _⟩ => by cases ha⟩

theorem ite_error_eq_ok_iff {c : Prop} [Decidable c] {e : ε} {x : Except ε β} {b : β} :
    (if c then .error e else x) = .ok b ↔ ¬ c ∧ x = .ok b := by
  by_cases hc : c
  · rw [if_pos hc]
    exact ⟨fun h => (by cases h), fun h => absurd hc h.1⟩
  · rw [if_neg hc]
    exact ⟨fun h => ⟨hc, h⟩, fun h => h.2⟩

theorem mapError_eq_ok_iff {ε' : Type} {f : ε → ε'} {x : Except ε α} {a : α} :
    x.mapError f = .ok a ↔ x = .ok a := by
  cases x with
  | ok b => exact ⟨fun h => (by cases h; rfl), fun h => (by cases h; rfl)⟩
  | error e => exact ⟨fun h => (by cases h), fun h => (by cases h)⟩

/-! ## Runs that may get stuck -/

/-- Where a checked run yields a value, this run is not stuck and yields the same, and the value has a
property. The property is what the next step may rely on. -/
def KeepsUp (run? : Option α) (run : Except ε α) (Q : α → Prop) : Prop :=
  ∀ a, run = .ok a → run? = some a ∧ Q a

section

variable {Q : α → Prop} {R : β → Prop}

theorem keepsUp_some {a : α} (h : Q a) : KeepsUp (some a) (.ok a : Except ε α) Q := by
  intro b run
  cases run
  exact ⟨rfl, h⟩

/-- A check that cannot be made in other numbers is made as it is. -/
theorem keepsUp_toOption (run : Except ε α) : KeepsUp run.toOption run fun a => run = .ok a := by
  intro a h
  rw [h]
  exact ⟨rfl, rfl⟩

theorem KeepsUp.bind {run? : Option α} {run : Except ε α} {f? : α → Option β} {f : α → Except ε β}
    (first : KeepsUp run? run Q) (rest : ∀ a, Q a → KeepsUp (f? a) (f a) R) :
    KeepsUp (run? >>= f?) (run >>= f) R := by
  intro b h
  obtain ⟨a, ran, h⟩ := bind_eq_ok_iff.mp h
  obtain ⟨found, holds⟩ := first a ran
  rw [found]
  exact rest a holds b h

/-- A step that only this run has to make. -/
theorem KeepsUp.after {step? : Option α} {a : α} (found : step? = some a) {f? : α → Option β}
    {run : Except ε β} (rest : KeepsUp (f? a) run R) : KeepsUp (step? >>= f?) run R := by
  rw [found]
  exact rest

theorem KeepsUp.mapM {f? : α → Option β} {f : α → Except ε β} :
    ∀ {l : List α}, (∀ a ∈ l, KeepsUp (f? a) (f a) fun _ => True) →
      KeepsUp (l.mapM f?) (l.mapM f) fun _ => True := by
  intro l
  induction l with
  | nil => exact fun _ => keepsUp_some trivial
  | cons a l ih =>
    intro h
    have rest := ih fun b mem => h b (List.mem_cons_of_mem a mem)
    rw [List.mapM_cons, List.mapM_cons]
    exact (h a List.mem_cons_self).bind fun _ _ => rest.bind fun _ _ => keepsUp_some trivial

theorem KeepsUp.ite {c : Prop} [Decidable c] {yes? no? : Option α} {yes no : Except ε α}
    (pos : c → KeepsUp yes? yes Q) (neg : ¬ c → KeepsUp no? no Q) :
    KeepsUp (if c then yes? else no?) (if c then yes else no) Q := by
  by_cases h : c
  · rw [if_pos h, if_pos h]
    exact pos h
  · rw [if_neg h, if_neg h]
    exact neg h

end

/-! ## Single steps that may get stuck -/

/-- A run goes on behind a step that is not stuck. -/
theorem bind_eq_some {run? : Option α} {a : α} {f? : α → Option β} {b : β} (found : run? = some a)
    (rest : f? a = some b) : (run? >>= f?) = some b := by
  rw [found]
  exact rest

/-- A difference of numbers, if it is not below zero. -/
def sub? (a b : Nat) : Option Nat := if b ≤ a then some (a - b) else none

theorem sub?_eq {a b : Nat} (le : b ≤ a) : sub? a b = some (a - b) := if_pos le

/-! ## Steps on the elements of a list -/

theorem findM?_eq_some_find? {f : α → Option Bool} {g : α → Bool} :
    ∀ {l : List α}, (∀ a ∈ l, f a = some (g a)) → l.findM? f = some (l.find? g) := by
  intro l
  induction l with
  | nil => exact fun _ => rfl
  | cons a l ih =>
    intro h
    have rest := ih fun b mem => h b (List.mem_cons_of_mem _ mem)
    rw [List.findM?, h a List.mem_cons_self, List.find?_cons]
    cases g a with
    | true => rfl
    | false => exact rest

theorem allM_eq_some_all {f : α → Option Bool} {g : α → Bool} :
    ∀ {l : List α}, (∀ a ∈ l, f a = some (g a)) → l.allM f = some (l.all g) := by
  intro l
  induction l with
  | nil => exact fun _ => rfl
  | cons a l ih =>
    intro h
    have rest := ih fun b mem => h b (List.mem_cons_of_mem _ mem)
    rw [List.allM, h a List.mem_cons_self, List.all_cons]
    cases g a with
    | true => exact rest
    | false => rfl

theorem mapM_eq_some_map {f : α → Option β} {g : α → β} :
    ∀ {l : List α}, (∀ a ∈ l, f a = some (g a)) → l.mapM f = some (l.map g) := by
  intro l
  induction l with
  | nil => exact fun _ => rfl
  | cons a l ih =>
    intro h
    rw [List.mapM_cons, h a List.mem_cons_self, ih fun b mem => h b (List.mem_cons_of_mem _ mem)]
    rfl

end Runs

/-- A number, if it is in the range of 64 bits. -/
def word? (n : Nat) : Option Nat := if n < UInt64.size then some n else none

theorem word?_bind {β : Type} (n : Nat) (f : Nat → Option β) :
    (word? n >>= f) = if n < UInt64.size then f n else none := by
  unfold word?
  split <;> rfl

theorem word?_eq {n : Nat} (small : n < UInt64.size) : word? n = some n := if_pos small

end Cuckoo

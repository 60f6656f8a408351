import Cuckoo.Proofs.Fingerprint

/-!
# The scan for the lowest window

A fingerprint can be found without a list of windows: a loop looks at one window after the other, from the
low end of the hash, until one is not zero or the next is not complete. Its position is a number of 32 bits,
and the hash is shifted by that much, so it may be stuck.

`CutsTo` says which number a hash is cut down to, without saying how it is found. There is one such number
only, and **both ways lead to it** (`cutsTo_of_ofHash`, `exists_scanned?`).
-/

set_option autoImplicit false

namespace Cuckoo.Fingerprint

open Runs

/-- `k` is the first of the complete windows, from the low end of the hash, that is not zero. -/
structure Lowest (width : Nat) (hash : UInt32) (k : Nat) : Prop where
  complete : (k + 1) * width ≤ maxWidth
  used : windowAt width hash k ≠ 0
  least : ∀ j, (j + 1) * width ≤ maxWidth → windowAt width hash j ≠ 0 → k ≤ j

/-- The number that a hash is cut down to. -/
inductive CutsTo (width : Nat) (hash : UInt32) : Nat → Prop
  | window {k : Nat} (lowest : Lowest width hash k) : CutsTo width hash (windowAt width hash k)
  /-- All complete windows are zero. -/
  | blank (zero : ∀ j, (j + 1) * width ≤ maxWidth → windowAt width hash j = 0) : CutsTo width hash 1

/-- Looks at the window from `bit` on, and then at those behind it. The run is stuck where the end of a
window is no number of 32 bits, and where a shift is by all bits or more. -/
def scan? {width : Nat} (pos : 1 ≤ width) (hash mask : UInt32) (bit : Nat) : Option UInt32 :=
  if UInt32.size ≤ bit + width then none
  else if _complete : bit + width ≤ maxWidth then do
    let shifted ← shiftRight? hash bit
    if shifted &&& mask ≠ 0 then pure (shifted &&& mask) else scan? pos hash mask (bit + width)
  else pure 1
  termination_by maxWidth - bit

def scanned? (width : Nat) (hash : UInt32) : Option UInt32 :=
  if valid : 1 ≤ width ∧ width ≤ maxWidth then do
    let mask ← shiftRight? 0xffffffff (← sub? maxWidth width)
    scan? valid.1 hash mask 0
  else none

/-! ## One number only -/

section

variable {width : Nat} {hash : UInt32} {v w : Nat}

theorem Lowest.unique {k l : Nat} (first : Lowest width hash k) (second : Lowest width hash l) :
    k = l :=
  Nat.le_antisymm (first.least l second.complete second.used)
    (second.least k first.complete first.used)

theorem CutsTo.unique (first : CutsTo width hash v) (second : CutsTo width hash w) : v = w := by
  cases first with
  | window lowest =>
    cases second with
    | window lowest' => rw [lowest.unique lowest']
    | blank zero => exact absurd (zero _ lowest.complete) lowest.used
  | blank zero =>
    cases second with
    | window lowest => exact absurd (zero _ lowest.complete) lowest.used
    | blank => rfl

theorem CutsTo.pos (cuts : CutsTo width hash v) : 1 ≤ v := by
  cases cuts with
  | window lowest => exact Nat.one_le_iff_ne_zero.mpr lowest.used
  | blank => exact Nat.le_refl 1

theorem CutsTo.le (pos : 1 ≤ width) (cuts : CutsTo width hash v) : v ≤ 2 ^ width - 1 := by
  apply Nat.le_sub_one_of_lt
  cases cuts with
  | window => exact windowAt_lt ..
  | blank => exact Nat.one_lt_two_pow (by omega)

end

/-! ## Both ways lead to it -/

section

variable {width : Nat} (pos : 1 ≤ width) (le : width ≤ maxWidth) (hash : UInt32)
include pos le

theorem window_ne_zero_iff {k : Nat} (complete : (k + 1) * width ≤ maxWidth) :
    window width hash k ≠ 0 ↔ windowAt width hash k ≠ 0 := by
  rw [← toNat_window pos le (begins_before_end pos complete)]
  exact not_congr UInt32.toNat_inj.symm

/-- What the loop does at the beginning of a window. -/
theorem scan?_window {k : Nat} (inside : k * width ≤ maxWidth) :
    scan? pos hash (ones width) (k * width) =
      if (k + 1) * width ≤ maxWidth then
        if window width hash k ≠ 0 then some (window width hash k)
        else scan? pos hash (ones width) ((k + 1) * width)
      else some 1 := by
  have small : ¬ UInt32.size ≤ k * width + width := by
    show ¬ 4294967296 ≤ _
    unfold maxWidth at le inside
    omega
  rw [scan?, if_neg small, Nat.succ_mul]
  by_cases complete : k * width + width ≤ maxWidth
  · have before : k * width < maxWidth := by omega
    have shifted : shiftRight? hash (k * width) = some (hash >>> (k * width).toUInt32) :=
      if_pos before
    rw [dif_pos complete, if_pos complete, shifted]
    rfl
  · rw [dif_neg complete, if_neg complete]
    rfl

/-- Where the windows before are zero, the loop goes on to the number that the hash is cut down to. -/
theorem exists_scan? : ∀ {left k : Nat}, maxWidth < k * width + left → k * width ≤ maxWidth →
    (∀ j < k, windowAt width hash j = 0) →
    ∃ fingerprint, scan? pos hash (ones width) (k * width) = some fingerprint ∧
      CutsTo width hash fingerprint.toNat := by
  -- the bits behind the position bound the number of windows to come
  intro left
  induction left with
  | zero =>
    intro k beyond inside
    omega
  | succ left ih =>
    intro k enough inside zero
    have step : (k + 1) * width = k * width + width := Nat.succ_mul k width
    rw [scan?_window pos le hash inside]
    by_cases complete : (k + 1) * width ≤ maxWidth
    · rw [if_pos complete]
      have used_iff := window_ne_zero_iff pos le hash complete
      by_cases used : window width hash k ≠ 0
      · rw [if_pos used]
        refine ⟨_, rfl, ?_⟩
        rw [toNat_window pos le (begins_before_end pos complete)]
        exact .window ⟨complete, used_iff.mp used, fun j _ used => Nat.le_of_not_lt fun earlier =>
          used (zero j earlier)⟩
      · rw [if_neg used]
        refine ih (by omega) complete fun j lt => ?_
        rcases Nat.lt_succ_iff_lt_or_eq.mp lt with earlier | rfl
        · exact zero j earlier
        · exact Decidable.of_not_not (mt used_iff.mpr used)
    · rw [if_neg complete]
      refine ⟨1, rfl, .blank fun j ends => zero j ?_⟩
      -- what is complete ends before the position
      have earlier : (j + 1) * width < (k + 1) * width := by omega
      exact Nat.succ_lt_succ_iff.mp (Nat.lt_of_mul_lt_mul_right earlier)

theorem exists_scanned? : ∃ fingerprint, scanned? width hash = some fingerprint ∧
    CutsTo width hash fingerprint.toNat := by
  have mask : shiftRight? 0xffffffff (maxWidth - width) = some (ones width) :=
    if_pos (by unfold maxWidth; omega)
  have ahead : maxWidth < 0 * width + (maxWidth + 1) := by omega
  have start := exists_scan? pos le hash ahead (by omega) nofun
  rw [Nat.zero_mul] at start
  unfold scanned?
  rw [dif_pos ⟨pos, le⟩, sub?_eq le]
  show ∃ fingerprint, (shiftRight? 0xffffffff (maxWidth - width) >>= _) = _ ∧ _
  rw [mask]
  exact start

theorem cutsTo_of_ofHash {fingerprint : UInt32} (run : ofHash width hash = .ok fingerprint) :
    CutsTo width hash fingerprint.toNat := by
  unfold ofHash at run
  rw [if_pos ⟨pos, le⟩, windows_eq, List.find?_map] at run
  cases run
  cases found : (List.range (maxWidth / width)).find? ((fun x => decide (x ≠ 0)) ∘ window width hash)
  with
  | none =>
    refine .blank fun j ends => ?_
    have lt := (lt_windows_iff pos).mpr ends
    have unused := List.find?_range_eq_none.mp found j lt
    exact Decidable.of_not_not fun used => by
      simp [(window_ne_zero_iff pos le hash ends).mpr used] at unused
  | some k =>
    obtain ⟨used, mem, least⟩ := List.find?_range_eq_some.mp found
    have complete := (lt_windows_iff pos).mp (List.mem_range.mp mem)
    show CutsTo width hash (window width hash k).toNat
    rw [toNat_window pos le (begins_before_end pos complete)]
    refine .window ⟨complete, (window_ne_zero_iff pos le hash complete).mp (of_decide_eq_true used),
      fun j ends used => Nat.le_of_not_lt fun earlier => ?_⟩
    have unused := least j earlier
    simp [(window_ne_zero_iff pos le hash ends).mpr used] at unused

end

end Cuckoo.Fingerprint

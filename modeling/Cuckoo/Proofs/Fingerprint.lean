import Cuckoo.Fingerprint
import Cuckoo.Proofs.Runs
import Mathlib.Algebra.Group.Nat.Defs

/-!
# Fingerprints can be stored

The value 0 stands for an empty cell and a cell is only so wide. A fingerprint is never 0 and never
wider than asked for, so **storing one can fail only for want of room**.
-/

set_option autoImplicit false

namespace Cuckoo.Fingerprint

open Runs

/-! ## Windows as numbers -/

/-- The `k`-th window of a hash, as a number. -/
def windowAt (width : Nat) (hash : UInt32) (k : Nat) : Nat :=
  (hash.toNat >>> (k * width)) % 2 ^ width

/-- The ones of a window of this width. -/
def ones (width : Nat) : UInt32 := 0xffffffff >>> (maxWidth - width).toUInt32

/-- The `k`-th window of a hash, shifted down and masked. -/
def window (width : Nat) (hash : UInt32) (k : Nat) : UInt32 :=
  (hash >>> (k * width).toUInt32) &&& ones width

theorem windows_eq (width : Nat) (hash : UInt32) :
    windows width hash = (List.range (maxWidth / width)).map (window width hash) := rfl

theorem toNat_ones {width : Nat} (pos : 1 ≤ width) (le : width ≤ maxWidth) :
    (ones width).toNat = 2 ^ width - 1 := by
  have amount : (maxWidth - width).toUInt32.toNat % 32 = 32 - width := by
    unfold maxWidth
    simp [Nat.toUInt32]
    omega
  have whole : (0xffffffff : UInt32).toNat = 2 ^ (32 - width) * 2 ^ width - (0 + 1) := by
    rw [← Nat.pow_add, show 32 - width + width = 32 from Nat.sub_add_cancel le]
    rfl
  have fits : 0 < 2 ^ (32 - width) * 2 ^ width :=
    Nat.mul_pos (Nat.two_pow_pos _) (Nat.two_pow_pos _)
  rw [ones, UInt32.toNat_shiftRight, amount, Nat.shiftRight_eq_div_pow, whole,
    Nat.mul_sub_div 0 _ _ fits, Nat.zero_div]

theorem toNat_window {width k : Nat} (pos : 1 ≤ width) (le : width ≤ maxWidth)
    (before : k * width < maxWidth) (hash : UInt32) :
    (window width hash k).toNat = windowAt width hash k := by
  have amount : (k * width).toUInt32.toNat % 32 = k * width := by
    unfold maxWidth at before
    simp [Nat.toUInt32]
    omega
  rw [window, UInt32.toNat_and, UInt32.toNat_shiftRight, amount, toNat_ones pos le,
    Nat.and_two_pow_sub_one_eq_mod]
  rfl

theorem windowAt_lt (width : Nat) (hash : UInt32) (k : Nat) : windowAt width hash k < 2 ^ width :=
  Nat.mod_lt _ (Nat.two_pow_pos width)

/-- The complete windows are those that end within the hash. -/
theorem lt_windows_iff {width k : Nat} (pos : 1 ≤ width) :
    k < maxWidth / width ↔ (k + 1) * width ≤ maxWidth :=
  Nat.le_div_iff_mul_le pos

/-- A complete window begins before the last bit. -/
theorem begins_before_end {width k : Nat} (pos : 1 ≤ width) (complete : (k + 1) * width ≤ maxWidth) :
    k * width < maxWidth := by
  rw [Nat.succ_mul] at complete
  omega

theorem toNat_lt_of_mem_windows {width : Nat} (pos : 1 ≤ width) (le : width ≤ maxWidth)
    {hash window : UInt32} (h : window ∈ windows width hash) : window.toNat < 2 ^ width := by
  rw [windows_eq] at h
  obtain ⟨k, mem, rfl⟩ := List.mem_map.mp h
  have complete := (lt_windows_iff pos).mp (List.mem_range.mp mem)
  rw [toNat_window pos le (begins_before_end pos complete)]
  exact windowAt_lt width hash k

/-- **A fingerprint exists, is not the value of an empty cell, and is no wider than asked for.** -/
theorem exists_ofHash {width : Nat} (pos : 1 ≤ width) (le : width ≤ maxWidth) (hash : UInt32) :
    ∃ fingerprint, ofHash width hash = .ok fingerprint ∧ fingerprint ≠ 0 ∧
      fingerprint.toNat < 2 ^ width := by
  refine ⟨_, if_pos ⟨pos, le⟩, ?_⟩
  cases found : (windows width hash).find? (· ≠ 0) with
  | none =>
    refine ⟨by simp, ?_⟩
    exact Nat.one_lt_two_pow (by omega)
  | some window =>
    refine ⟨by simpa using List.find?_some found, ?_⟩
    exact toNat_lt_of_mem_windows pos le (List.mem_of_find?_eq_some found)

/-! ## Window by window, with every step checked -/

/-- A word shifted, by less than its 32 bits. -/
def shiftRight? (word : UInt32) (amount : Nat) : Option UInt32 :=
  if amount < 32 then some (word >>> amount.toUInt32) else none

def windows? (width : Nat) (hash : UInt32) : Option (List UInt32) := do
  let mask ← shiftRight? 0xffffffff (← sub? maxWidth width)
  (List.range (maxWidth / width)).mapM fun k => do
    let window ← shiftRight? hash (k * width)
    pure (window &&& mask)

def ofHash? (width : Nat) (hash : UInt32) : Option UInt32 := do
  if ¬ (1 ≤ width ∧ width ≤ maxWidth) then none
  let windows ← windows? width hash
  pure ((windows.find? (· ≠ 0)).getD 1)

theorem windows?_eq {width : Nat} (pos : 1 ≤ width) (le : width ≤ maxWidth) (hash : UInt32) :
    windows? width hash = some (windows width hash) := by
  have mask : shiftRight? 0xffffffff (maxWidth - width) =
      some (0xffffffff >>> (maxWidth - width).toUInt32) := if_pos (by unfold maxWidth; omega)
  unfold windows?
  rw [sub?_eq le, Option.bind_eq_bind, Option.bind_some, mask]
  refine mapM_eq_some_map fun k mem => ?_
  have complete := (lt_windows_iff pos).mp (List.mem_range.mp mem)
  have shifted : shiftRight? hash (k * width) = some (hash >>> (k * width).toUInt32) :=
    if_pos (begins_before_end pos complete)
  rw [shifted]
  rfl

/-- **Making a fingerprint is never stuck** where it is not refused. -/
theorem keepsUp_ofHash (width : Nat) (hash : UInt32) :
    KeepsUp (ofHash? width hash) (ofHash width hash) fun _ => True := by
  intro fingerprint run
  unfold ofHash at run
  split at run
  next ok =>
    cases run
    unfold ofHash?
    rw [if_neg (not_not_intro ok), windows?_eq ok.1 ok.2]
    exact ⟨rfl, trivial⟩
  next => cases run

end Cuckoo.Fingerprint

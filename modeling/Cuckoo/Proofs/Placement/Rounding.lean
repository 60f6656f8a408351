import Cuckoo.Proofs.Placement.Lawful

/-!
# Rounding bucket counts

Each rule says in two places which bucket counts it works for: it checks a count, and it raises one. The
two are written separately, with limits of their own. **They agree**: what a count is raised to is the
least one from there on that passes the check, and a count is only refused if none does.

From this alone it follows that rounding is monotone, that rounding twice is rounding once, and that
the counts that stay as they are are those that pass (`RoundsUp`).

Rounding works close to the largest word, where the next power of two and the next even number no
longer are words. The rules are therefore also given here in bounded numbers, and a sum that leaves
their range leaves the run stuck. No run is (`Scheme.round?_eq`).
-/

set_option autoImplicit false

namespace Cuckoo

open Runs

namespace Placement

/-- `r` is the least bucket count from `m` on for which the rule works. -/
structure LeastFrom (P : Placement) (m r : UInt64) : Prop where
  accepts : P.Accepts r
  le : m ≤ r
  least : ∀ r', P.Accepts r' → m ≤ r' → r ≤ r'

/-- The rule raises each bucket count to the least one for which it works. Where there is none the
bucket count is objected to as an argument. -/
structure RoundsUp (P : Placement) : Prop where
  of_ok : ∀ {m r : UInt64}, P.round m = .ok r → P.LeastFrom m r
  of_error : ∀ {m : UInt64} {f : Failure}, P.round m = .error f →
    f.report.kind = .invalidArgument ∧ ∀ r, m ≤ r → ¬ P.Accepts r

/-! ## What follows for every such rule -/

theorem LeastFrom.unique {P : Placement} {m r r' : UInt64} (h : P.LeastFrom m r)
    (h' : P.LeastFrom m r') : r = r' :=
  UInt64.le_antisymm (h.least r' h'.accepts h'.le) (h'.least r h.accepts h.le)

theorem LeastFrom.self {P : Placement} {m : UInt64} (accepts : P.Accepts m) : P.LeastFrom m m :=
  ⟨accepts, UInt64.le_refl m, fun _ _ le => le⟩

namespace RoundsUp

variable {P : Placement} (hP : P.RoundsUp) {m m' r r' : UInt64}
include hP

theorem exists_round (accepts : P.Accepts r') (le : m ≤ r') : ∃ r, P.round m = .ok r := by
  cases run : P.round m with
  | ok r => exact ⟨r, rfl⟩
  | error f => exact absurd accepts ((hP.of_error run).2 r' le)

theorem round_eq_ok_iff : P.round m = .ok r ↔ P.LeastFrom m r := by
  refine ⟨hP.of_ok, fun h => ?_⟩
  obtain ⟨r', run⟩ := hP.exists_round h.accepts h.le
  rw [run, h.unique (hP.of_ok run)]

theorem round_isOk_iff : (∃ r, P.round m = .ok r) ↔ ∃ r, m ≤ r ∧ P.Accepts r := by
  constructor
  · rintro ⟨r, run⟩
    exact ⟨r, (hP.of_ok run).le, (hP.of_ok run).accepts⟩
  · rintro ⟨r, le, accepts⟩
    exact hP.exists_round accepts le

theorem round_self_iff : P.round m = .ok m ↔ P.Accepts m :=
  ⟨fun run => (hP.of_ok run).accepts, fun accepts => hP.round_eq_ok_iff.mpr (.self accepts)⟩

theorem round_round (run : P.round m = .ok r) : P.round r = .ok r :=
  hP.round_self_iff.mpr (hP.of_ok run).accepts

theorem round_mono (le : m ≤ m') (run' : P.round m' = .ok r') :
    ∃ r, P.round m = .ok r ∧ r ≤ r' := by
  have above := UInt64.le_trans le (hP.of_ok run').le
  obtain ⟨r, run⟩ := hP.exists_round (hP.of_ok run').accepts above
  exact ⟨r, run, (hP.of_ok run).least r' (hP.of_ok run').accepts above⟩

end RoundsUp

/-! ## Rules that round a number -/

/-- The rule works for the good numbers up to a limit, and a bucket count is raised to the least good
number from there on, unless this is beyond the limit. -/
structure Ceils (P : Placement) (good : Nat → Prop) (ceil : Nat → Nat) (limit : Nat) : Prop where
  limit_lt : limit < 2 ^ 64
  accepts_iff : ∀ {m : UInt64}, P.Accepts m ↔ good m.toNat ∧ m.toNat ≤ limit
  round_eq_ok_iff : ∀ {m r : UInt64}, P.round m = .ok r ↔
    ceil m.toNat ≤ limit ∧ UInt64.ofNat (ceil m.toNat) = r
  kind_eq : ∀ {m : UInt64} {f : Failure}, P.round m = .error f → f.report.kind = .invalidArgument
  good_ceil : ∀ n, good (ceil n)
  le_ceil : ∀ n, n ≤ ceil n
  ceil_le : ∀ {n k}, n ≤ k → good k → ceil n ≤ k

theorem Ceils.roundsUp {P : Placement} {good : Nat → Prop} {ceil : Nat → Nat} {limit : Nat}
    (h : P.Ceils good ceil limit) : P.RoundsUp where
  of_ok := by
    intro m r run
    obtain ⟨small, rfl⟩ := h.round_eq_ok_iff.mp run
    have value : (UInt64.ofNat (ceil m.toNat)).toNat = ceil m.toNat :=
      UInt64.toNat_ofNat_of_lt' (Nat.lt_of_le_of_lt small h.limit_lt)
    refine ⟨?_, ?_, ?_⟩
    · rw [h.accepts_iff, value]
      exact ⟨h.good_ceil _, small⟩
    · rw [UInt64.le_iff_toNat_le, value]
      exact h.le_ceil _
    · intro r' accepts le
      rw [UInt64.le_iff_toNat_le, value]
      exact h.ceil_le (UInt64.le_iff_toNat_le.mp le) (h.accepts_iff.mp accepts).1
  of_error := by
    intro m f run
    refine ⟨h.kind_eq run, fun r le accepts => ?_⟩
    -- a good number within the limit would have been found
    obtain ⟨good, most⟩ := h.accepts_iff.mp accepts
    have small := Nat.le_trans (h.ceil_le (UInt64.le_iff_toNat_le.mp le) good) most
    cases run.symm.trans (h.round_eq_ok_iff.mpr ⟨small, rfl⟩)

/-! ## Powers of two -/

theorem exists_ceilPowerOfTwo (n : Nat) : ∃ k, ceilPowerOfTwo n = 2 ^ k := by
  unfold ceilPowerOfTwo
  split
  · exact ⟨0, rfl⟩
  · exact ⟨_, Nat.one_shiftLeft _⟩

theorem le_ceilPowerOfTwo (n : Nat) : n ≤ ceilPowerOfTwo n := by
  unfold ceilPowerOfTwo
  split
  · assumption
  · rw [Nat.one_shiftLeft]
    have := @Nat.lt_log2_self (n - 1)
    omega

theorem ceilPowerOfTwo_le {n k : Nat} (le : n ≤ 2 ^ k) : ceilPowerOfTwo n ≤ 2 ^ k := by
  unfold ceilPowerOfTwo
  split
  · exact Nat.two_pow_pos k
  · -- the number below `n` has fewer binary digits than `2 ^ k`
    have below : (n - 1).log2 < k := (Nat.log2_lt (by omega)).mpr (by omega)
    rw [Nat.one_shiftLeft]
    exact Nat.pow_le_pow_right (by decide) below

theorem xor_ceils :
    xor.Ceils (fun n => ∃ k, n = 2 ^ k) ceilPowerOfTwo maxPowerOfTwo.toNat where
  limit_lt := by decide
  accepts_iff := by
    intro m
    rw [xor_accepts_iff_two_pow]
    constructor
    · rintro ⟨k, most, power⟩
      exact ⟨⟨k, power⟩, power ▸ Nat.pow_le_pow_right (by decide) most⟩
    · rintro ⟨⟨k, power⟩, small⟩
      rw [power] at small
      exact ⟨k, (Nat.pow_le_pow_iff_right (by decide)).mp small, power⟩
  round_eq_ok_iff := by
    intro m r
    unfold xor
    dsimp only
    split
    next small => exact ⟨fun run => ⟨small, Except.ok.inj run⟩, fun h => congrArg Except.ok h.2⟩
    next large => exact ⟨fun run => (by cases run), fun h => absurd h.1 large⟩
  kind_eq := by
    intro m f run
    unfold xor at run
    dsimp only at run
    split at run <;> cases run
    rfl
  good_ceil := exists_ceilPowerOfTwo
  le_ceil := le_ceilPowerOfTwo
  ceil_le := by
    rintro n _ le ⟨k, rfl⟩
    exact ceilPowerOfTwo_le le

/-! ## Even numbers -/

/-- The least positive even number that is not below `n`. -/
def ceilEven (n : Nat) : Nat := max n 2 + max n 2 % 2

theorem ceilEven_lt {m : UInt64} (below : m.toNat ≠ 0xffffffffffffffff) :
    ceilEven m.toNat < 2 ^ 64 := by
  have := m.toNat_lt
  unfold ceilEven
  omega

theorem toNat_ofNat_ceilEven {m : UInt64} (below : m.toNat ≠ 0xffffffffffffffff) :
    (UInt64.ofNat (ceilEven m.toNat)).toNat = ceilEven m.toNat :=
  UInt64.toNat_ofNat_of_lt' (ceilEven_lt below)

theorem toNat_max (a b : UInt64) : (max a b).toNat = max a.toNat b.toNat := by
  by_cases le : a ≤ b
  · rw [show max a b = b from if_pos le]
    exact (Nat.max_eq_right (UInt64.le_iff_toNat_le.mp le)).symm
  · rw [show max a b = a from if_neg le]
    exact (Nat.max_eq_left (Nat.le_of_not_le (mt UInt64.le_iff_toNat_le.mpr le))).symm

/-- Only the largest word has no even word from there on. Below it no sum overflows. -/
theorem parityOffset_round_eq (m : UInt64) : parityOffset.round m =
    if m.toNat = 0xffffffffffffffff then .error (.noEvenCount m)
    else if ceilEven m.toNat ≤ maxBuckets.toNat then .ok (UInt64.ofNat (ceilEven m.toNat))
    else .error (.notPositiveEven (UInt64.ofNat (ceilEven m.toNat))) := by
  have last : max m 2 = 0xffffffffffffffff ↔ m.toNat = 0xffffffffffffffff := by
    rw [← UInt64.toNat_inj, toNat_max]
    show max m.toNat 2 = 0xffffffffffffffff ↔ _
    omega
  unfold parityOffset
  dsimp only
  by_cases top : m.toNat = 0xffffffffffffffff
  · rw [if_pos top, if_pos (last.mpr top)]
    rfl
  · have raised : max m 2 + max m 2 % 2 = UInt64.ofNat (ceilEven m.toNat) := by
      apply UInt64.toNat.inj
      rw [UInt64.toNat_add, UInt64.toNat_mod, toNat_max, toNat_ofNat_ceilEven top]
      exact Nat.mod_eq_of_lt (ceilEven_lt top)
    have fits : UInt64.ofNat (ceilEven m.toNat) ≤ maxBuckets ↔
        ceilEven m.toNat ≤ maxBuckets.toNat := by
      rw [UInt64.le_iff_toNat_le, toNat_ofNat_ceilEven top]
    rw [if_neg top, if_neg (mt last.mp top), raised]
    by_cases small : ceilEven m.toNat ≤ maxBuckets.toNat
    · rw [if_pos small]
      exact if_pos (fits.mpr small)
    · rw [if_neg small]
      exact if_neg (mt fits.mp small)

theorem parityOffset_ceils :
    parityOffset.Ceils (fun n => 2 ≤ n ∧ n % 2 = 0) ceilEven maxBuckets.toNat where
  limit_lt := by decide
  accepts_iff := by
    intro m
    rw [parityOffset_accepts_iff_toNat, and_assoc]
    rfl
  round_eq_ok_iff := by
    intro m r
    rw [parityOffset_round_eq]
    split
    next top =>
      rw [top]
      exact ⟨fun run => (by cases run), fun h => absurd h.1 (by decide)⟩
    next =>
      split
      next small => exact ⟨fun run => ⟨small, Except.ok.inj run⟩, fun h => congrArg Except.ok h.2⟩
      next large => exact ⟨fun run => (by cases run), fun h => absurd h.1 large⟩
  kind_eq := by
    intro m f run
    rw [parityOffset_round_eq] at run
    split at run
    · cases run
      rfl
    · split at run <;> cases run
      rfl
  good_ceil := by
    intro n
    unfold ceilEven
    omega
  le_ceil := by
    intro n
    unfold ceilEven
    omega
  ceil_le := by
    rintro n k le ⟨two, even⟩
    unfold ceilEven
    omega

/-! ## In bounded numbers -/

/-- All ones below the least power of two that is not below `m`. -/
def onesBelow? (m : UInt64) : Option Nat :=
  if m.toNat ≤ 1 then pure 0 else do
    let below ← sub? m.toNat 1
    let zeros ← sub? 63 below.log2
    pure (0xffffffffffffffff >>> zeros)

/-- Raises a count to all ones and one more, which must be a word. -/
def roundByPower? (m : UInt64) : Option (Except Failure UInt64) := do
  let ones ← onesBelow? m
  if ones = 0xffffffffffffffff then pure (.error (.noPowerOfTwo m)) else
    let rounded ← word? (ones + 1)
    pure (if rounded ≤ maxPowerOfTwo.toNat then .ok (UInt64.ofNat rounded)
      else .error (.noPowerOfTwo m))

def roundByParity? (m : UInt64) : Option (Except Failure UInt64) := do
  let least := max m.toNat 2
  if least = 0xffffffffffffffff then pure (.error (.noEvenCount m)) else
    let rounded ← word? (least + least % 2)
    pure (if rounded ≤ maxBuckets.toNat then .ok (UInt64.ofNat rounded)
      else .error (.notPositiveEven (UInt64.ofNat rounded)))

theorem ones_shiftRight {top : Nat} (le : top ≤ 63) :
    0xffffffffffffffff >>> (63 - top) = 2 ^ (top + 1) - 1 := by
  have whole : 0xffffffffffffffff = 2 ^ (63 - top) * 2 ^ (top + 1) - (0 + 1) := by
    rw [← Nat.pow_add, show 63 - top + (top + 1) = 64 by omega]
  have pos : 0 < 2 ^ (63 - top) * 2 ^ (top + 1) :=
    Nat.mul_pos (Nat.two_pow_pos _) (Nat.two_pow_pos _)
  rw [Nat.shiftRight_eq_div_pow, whole, Nat.mul_sub_div 0 _ _ pos, Nat.zero_div]

theorem onesBelow?_eq (m : UInt64) : onesBelow? m = some (ceilPowerOfTwo m.toNat - 1) := by
  unfold onesBelow? ceilPowerOfTwo
  by_cases large : m.toNat ≤ 1
  · rw [if_pos large, if_pos large]
    rfl
  · have small := m.toNat_lt
    have digits : (m.toNat - 1).log2 ≤ 63 :=
      Nat.le_of_lt_succ ((Nat.log2_lt (by omega)).mpr (by omega))
    rw [if_neg large, if_neg large, sub?_eq (show 1 ≤ m.toNat by omega)]
    show (sub? 63 (m.toNat - 1).log2 >>= _) = _
    rw [sub?_eq digits, Nat.one_shiftLeft, ← ones_shiftRight digits]
    rfl

theorem roundByPower?_eq (m : UInt64) : roundByPower? m = some (xor.round m) := by
  obtain ⟨k, power⟩ := exists_ceilPowerOfTwo m.toNat
  have pos : 0 < ceilPowerOfTwo m.toNat := power ▸ Nat.two_pow_pos k
  have most : ceilPowerOfTwo m.toNat ≤ 2 ^ 64 := ceilPowerOfTwo_le (Nat.le_of_lt m.toNat_lt)
  unfold roundByPower?
  rw [onesBelow?_eq]
  show (if ceilPowerOfTwo m.toNat - 1 = 0xffffffffffffffff then _ else _) = _
  by_cases top : ceilPowerOfTwo m.toNat - 1 = 0xffffffffffffffff
  · -- the next power of two is 2 ^ 64, which is no word and beyond every limit
    have large : ¬ ceilPowerOfTwo m.toNat ≤ maxPowerOfTwo.toNat := by
      show ¬ ceilPowerOfTwo m.toNat ≤ 2 ^ 62
      omega
    rw [if_pos top]
    exact congrArg some (if_neg large).symm
  · rw [if_neg top, Nat.sub_add_cancel pos,
      word?_eq (show ceilPowerOfTwo m.toNat < 2 ^ 64 by omega)]
    rfl

theorem roundByParity?_eq (m : UInt64) : roundByParity? m = some (parityOffset.round m) := by
  have last : max m.toNat 2 = 0xffffffffffffffff ↔ m.toNat = 0xffffffffffffffff := by omega
  rw [parityOffset_round_eq]
  unfold roundByParity?
  dsimp only
  by_cases top : m.toNat = 0xffffffffffffffff
  · rw [if_pos (last.mpr top), if_pos top]
    rfl
  · have sum : max m.toNat 2 + max m.toNat 2 % 2 = ceilEven m.toNat := rfl
    rw [if_neg (mt last.mp top), if_neg top, sum, word?_eq (ceilEven_lt top)]
    rfl

end Placement

namespace Scheme

open Placement

def round? : Scheme → (m : UInt64) → Option (Except Failure UInt64)
  | .parityOffset => roundByParity?
  | .xor => roundByPower?

theorem round?_eq (s : Scheme) (m : UInt64) : s.round? m = some (s.placement.round m) := by
  cases s with
  | parityOffset => exact roundByParity?_eq m
  | xor => exact roundByPower?_eq m

theorem placement_roundsUp (s : Scheme) : s.placement.RoundsUp := by
  cases s with
  | parityOffset => exact parityOffset_ceils.roundsUp
  | xor => exact xor_ceils.roundsUp

end Scheme

end Cuckoo

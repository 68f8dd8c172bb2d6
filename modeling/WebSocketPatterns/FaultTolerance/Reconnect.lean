import Mathlib.Algebra.Order.Archimedean.Basic
import Mathlib.Algebra.Order.Field.Rat
import Mathlib.Tactic.Linarith
import Mathlib.Tactic.NormNum
import Mathlib.Tactic.Ring

/-!
# The reconnection policy

`delay_for` caps the delay after it has computed `multiplier ** attempt`, and
Python raises `OverflowError` when that power leaves the range of a float. All
other arithmetic is exact here. Whether an allowed attempt can get that far is
decided by `max_attempts`, which is unlimited by default.

The jitter is a signed share of the capped delay and is added after the cap, so a
draw above one half takes a delay that has reached the cap past it.
-/

namespace WebSocketPatterns.FaultTolerance

/-- Client-side reconnection with exponential backoff. -/
structure ReconnectPolicy where
  initialDelayS : ℚ := 1
  maxDelayS : ℚ := 30
  multiplier : ℚ := 2
  jitterFraction : ℚ := 1 / 5
  maxAttempts : Int := 0

/-- Raised by `float.__pow__`. -/
structure OverflowError where
deriving DecidableEq

/-- `base ** n` of a float: an exact power of 2^1024 or more does not fit. -/
def pyPow (base : ℚ) (n : Nat) : Except OverflowError ℚ :=
  if 2 ^ 1024 ≤ base ^ n then .error ⟨⟩ else .ok (base ^ n)

namespace ReconnectPolicy

/-- Reconnection delay for the given attempt; `random` is what `random.random()` returns. -/
def delayFor (policy : ReconnectPolicy) (attempt : Nat) (random : ℚ) : Except OverflowError ℚ := do
  let power ← pyPow policy.multiplier attempt
  let raw := min (policy.initialDelayS * power) policy.maxDelayS
  let jitter := raw * policy.jitterFraction * (random * 2 - 1)
  return max 0 (raw + jitter)

/-- Whether another reconnection attempt should be made. -/
def shouldRetry (policy : ReconnectPolicy) (attempt : Nat) : Bool :=
  if policy.maxAttempts = 0 then true else decide ((attempt : Int) < policy.maxAttempts)

/-- The ranges the fields are documented with. -/
structure Valid (policy : ReconnectPolicy) : Prop where
  initialDelayS : 0 < policy.initialDelayS
  maxDelayS : 0 < policy.maxDelayS
  multiplier : 1 ≤ policy.multiplier
  jitterFraction : 0 ≤ policy.jitterFraction ∧ policy.jitterFraction ≤ 1

/-- Every attempt the policy allows gets a delay, whatever number is drawn. -/
def NeverFails (policy : ReconnectPolicy) : Prop :=
  ∀ attempt random, 0 ≤ random → random < 1 → policy.shouldRetry attempt = true →
    ∃ delay, policy.delayFor attempt random = .ok delay

/-- The delay is computed unless the power overflows. -/
theorem delayFor_eq (policy : ReconnectPolicy) (attempt : Nat) (random : ℚ) :
    policy.delayFor attempt random =
      if 2 ^ 1024 ≤ policy.multiplier ^ attempt then .error ⟨⟩
      else
        let raw := min (policy.initialDelayS * policy.multiplier ^ attempt) policy.maxDelayS
        .ok (max 0 (raw + raw * policy.jitterFraction * (random * 2 - 1))) := by
  rw [delayFor, pyPow]
  split <;> rfl

theorem delayFor_returns_iff (policy : ReconnectPolicy) (attempt : Nat) (random : ℚ) :
    (∃ delay, policy.delayFor attempt random = .ok delay) ↔
      policy.multiplier ^ attempt < 2 ^ 1024 := by
  rw [delayFor_eq]
  split
  · rename_i hover
    simp [hover]
  · rename_i hfits
    simpa using hfits

/-- The draw plays no part in whether an attempt fails. -/
theorem neverFails_iff_powers (policy : ReconnectPolicy) :
    policy.NeverFails ↔
      ∀ attempt, policy.shouldRetry attempt = true → policy.multiplier ^ attempt < 2 ^ 1024 := by
  constructor
  · intro h attempt hretry
    have hreturns := h attempt 0 le_rfl one_pos hretry
    exact (policy.delayFor_returns_iff attempt 0).mp hreturns
  · intro h attempt random _ _ hretry
    exact (policy.delayFor_returns_iff attempt random).mpr (h attempt hretry)

theorem shouldRetry_iff (policy : ReconnectPolicy) (attempt : Nat) :
    policy.shouldRetry attempt = true ↔
      policy.maxAttempts = 0 ∨ (attempt : Int) < policy.maxAttempts := by
  rw [shouldRetry]
  split
  · rename_i hunlimited
    simp [hunlimited]
  · rename_i hlimited
    simp [hlimited]

/-- Without a limit a multiplier above one overflows sooner or later. -/
theorem exists_overflow {policy : ReconnectPolicy} (h : 1 < policy.multiplier) :
    ∃ attempt, 2 ^ 1024 ≤ policy.multiplier ^ attempt := by
  obtain ⟨attempt, hlt⟩ := pow_unbounded_of_one_lt (2 ^ 1024 : ℚ) h
  exact ⟨attempt, hlt.le⟩

/-- A valid policy never fails on an attempt it allows if and only if its delays do not grow, it
allows no attempt, or the power of its last attempt still fits. -/
theorem never_fails_iff {policy : ReconnectPolicy} (valid : policy.Valid) :
    policy.NeverFails ↔
      policy.multiplier = 1 ∨ policy.maxAttempts < 0 ∨
        0 < policy.maxAttempts ∧
          policy.multiplier ^ (policy.maxAttempts.toNat - 1) < 2 ^ 1024 := by
  rw [neverFails_iff_powers]
  constructor
  · intro h
    rcases lt_trichotomy policy.maxAttempts 0 with hneg | hzero | hpos
    · exact Or.inr (Or.inl hneg)
    · left
      by_contra hne
      have hgrows : 1 < policy.multiplier := lt_of_le_of_ne valid.multiplier (Ne.symm hne)
      obtain ⟨attempt, hover⟩ := exists_overflow hgrows
      have hfits := h attempt ((policy.shouldRetry_iff attempt).mpr (Or.inl hzero))
      exact absurd hover (not_le.mpr hfits)
    · refine Or.inr (Or.inr ⟨hpos, ?_⟩)
      apply h
      rw [shouldRetry_iff]
      right
      omega
  · rintro (hone | hneg | ⟨hpos, hlast⟩) attempt hretry
    · rw [hone, one_pow]
      exact one_lt_pow₀ one_lt_two (by decide)
    · rw [shouldRetry_iff] at hretry
      omega
    · rw [shouldRetry_iff] at hretry
      have hle : attempt ≤ policy.maxAttempts.toNat - 1 := by omega
      exact (pow_le_pow_right₀ valid.multiplier hle).trans_lt hlast

/-- A thousand attempts at the default multiplier. -/
theorem never_fails_limited : NeverFails { maxAttempts := 1000 } := by
  have valid : Valid { maxAttempts := 1000 } := ⟨by norm_num, by norm_num, by norm_num, by norm_num⟩
  apply (never_fails_iff valid).mpr
  refine Or.inr (Or.inr ⟨by norm_num, ?_⟩)
  exact pow_lt_pow_right₀ (by norm_num) (by decide)

/-- The default policy allows attempt 1024 and raises on it, whatever is drawn. -/
theorem default_policy_overflows :
    shouldRetry {} 1024 = true ∧ (∀ random, delayFor {} 1024 random = .error ⟨⟩) ∧
      ¬ NeverFails {} := by
  have hraises : ∀ random, delayFor {} 1024 random = .error ⟨⟩ := by
    intro random
    rw [delayFor_eq, if_pos le_rfl]
  refine ⟨rfl, hraises, ?_⟩
  intro h
  obtain ⟨delay, hdelay⟩ := h 1024 0 le_rfl one_pos rfl
  rw [hraises 0] at hdelay
  simp at hdelay

/-! ## The cap and the jitter -/

/-- `delay_for` over exact rationals, where no power overflows. -/
def exactDelayFor (policy : ReconnectPolicy) (attempt : Nat) (random : ℚ) : ℚ :=
  let raw := min (policy.initialDelayS * policy.multiplier ^ attempt) policy.maxDelayS
  let jitter := raw * policy.jitterFraction * (random * 2 - 1)
  max 0 (raw + jitter)

/-- The ranges of the fields with their end points: nothing is negative, delays do not shrink and
the jitter is at most the delay itself. -/
structure InRange (policy : ReconnectPolicy) : Prop where
  initialDelayS : 0 ≤ policy.initialDelayS
  maxDelayS : 0 ≤ policy.maxDelayS
  multiplier : 1 ≤ policy.multiplier
  jitterFraction : 0 ≤ policy.jitterFraction ∧ policy.jitterFraction ≤ 1

/-- The delay of an attempt stays between zero and the cap. -/
def RespectsCap (policy : ReconnectPolicy) (attempt : Nat) (random : ℚ) : Prop :=
  0 ≤ policy.exactDelayFor attempt random ∧ policy.exactDelayFor attempt random ≤ policy.maxDelayS

/-- What a draw multiplies the delay by: the jitter is a share of the delay it is added to. -/
def jitterFactor (policy : ReconnectPolicy) (random : ℚ) : ℚ :=
  1 + policy.jitterFraction * (random * 2 - 1)

/-- Below the overflow the computed delay is the exact one. -/
theorem delayFor_eq_exact {policy : ReconnectPolicy} {attempt : Nat}
    (hfits : policy.multiplier ^ attempt < 2 ^ 1024) (random : ℚ) :
    policy.delayFor attempt random = .ok (policy.exactDelayFor attempt random) := by
  rw [delayFor_eq, if_neg (not_le.mpr hfits)]
  rfl

theorem exactDelayFor_eq (policy : ReconnectPolicy) (attempt : Nat) (random : ℚ) :
    policy.exactDelayFor attempt random =
      max 0 (min (policy.initialDelayS * policy.multiplier ^ attempt) policy.maxDelayS *
        policy.jitterFactor random) := by
  simp only [exactDelayFor, jitterFactor]
  congr 1
  ring

namespace InRange

variable {policy : ReconnectPolicy} {random : ℚ}

theorem jitterFactor_nonneg (ranges : policy.InRange) (h0 : 0 ≤ random) :
    0 ≤ policy.jitterFactor random := by
  obtain ⟨hlow, hhigh⟩ := ranges.jitterFraction
  have hdraw : -1 ≤ random * 2 - 1 := by linarith
  have hshare : policy.jitterFraction * -1 ≤ policy.jitterFraction * (random * 2 - 1) :=
    mul_le_mul_of_nonneg_left hdraw hlow
  rw [jitterFactor]
  linarith

/-- A draw makes no delay longer exactly when it is at most one half or there is no jitter. -/
theorem jitterFactor_le_one_iff (ranges : policy.InRange) :
    policy.jitterFactor random ≤ 1 ↔ random ≤ 1 / 2 ∨ policy.jitterFraction = 0 := by
  have hnonneg := ranges.jitterFraction.1
  rw [jitterFactor, add_le_iff_nonpos_right]
  constructor
  · intro h
    by_contra! hboth
    obtain ⟨hdraw, hjitter⟩ := hboth
    have hpos : 0 < policy.jitterFraction := lt_of_le_of_ne hnonneg (Ne.symm hjitter)
    have hup : 0 < policy.jitterFraction * (random * 2 - 1) := mul_pos hpos (by linarith)
    linarith
  · rintro (hdraw | hjitter)
    · exact mul_nonpos_of_nonneg_of_nonpos hnonneg (by linarith)
    · simp [hjitter]

/-- The cap survives a factor that lengthens no delay, and any factor when it is zero. -/
theorem cap_mul_le_iff (ranges : policy.InRange) (random : ℚ) :
    policy.maxDelayS * policy.jitterFactor random ≤ policy.maxDelayS ↔
      random ≤ 1 / 2 ∨ policy.jitterFraction = 0 ∨ policy.maxDelayS = 0 := by
  rcases ranges.maxDelayS.eq_or_lt with hzero | hpos
  · simp [← hzero]
  · rw [mul_le_iff_le_one_right hpos, ranges.jitterFactor_le_one_iff]
    simp [hpos.ne']

/-- One attempt and one draw: the smaller of the two delays is scaled, so one of them has to fit
once it is scaled. -/
theorem respectsCap_iff (ranges : policy.InRange) (attempt : Nat) (h0 : 0 ≤ random) :
    policy.RespectsCap attempt random ↔
      random ≤ 1 / 2 ∨ policy.jitterFraction = 0 ∨ policy.maxDelayS = 0 ∨
        policy.initialDelayS * policy.multiplier ^ attempt * policy.jitterFactor random ≤
          policy.maxDelayS := by
  have hfactor := ranges.jitterFactor_nonneg h0
  have hmax := ranges.maxDelayS
  have hcap := ranges.cap_mul_le_iff random
  rw [RespectsCap, exactDelayFor_eq, min_mul_of_nonneg _ _ hfactor]
  simp only [le_max_left, true_and, max_le_iff, hmax, min_le_iff, hcap]
  rw [or_comm, or_assoc, or_assoc]

/-- A growing delay passes every bound, and a draw above one half leaves it past the cap. -/
theorem exists_past_cap (ranges : policy.InRange) (hjitter : policy.jitterFraction ≠ 0)
    (hmax : policy.maxDelayS ≠ 0) (hinitial : policy.initialDelayS ≠ 0)
    (hgrows : 1 < policy.multiplier) :
    ∃ attempt, ¬ policy.RespectsCap attempt (3 / 4) := by
  have hinitial : 0 < policy.initialDelayS := lt_of_le_of_ne ranges.initialDelayS hinitial.symm
  obtain ⟨attempt, hpast⟩ := pow_unbounded_of_one_lt
    (policy.maxDelayS / policy.initialDelayS) hgrows
  rw [div_lt_iff₀' hinitial] at hpast
  have hfactor : 1 < policy.jitterFactor (3 / 4) := by
    rw [← not_le, ranges.jitterFactor_le_one_iff]
    rintro (hdraw | hzero)
    · norm_num at hdraw
    · exact hjitter hzero
  refine ⟨attempt, ?_⟩
  rw [ranges.respectsCap_iff attempt (by norm_num)]
  rintro (hdraw | hzero | hzero | hfits)
  · norm_num at hdraw
  · exact hjitter hzero
  · exact hmax hzero
  · have hpos : 0 < policy.initialDelayS * policy.multiplier ^ attempt :=
      ranges.maxDelayS.trans_lt hpast
    have hlonger := (lt_mul_iff_one_lt_right hpos).mpr hfactor
    linarith

/-- With a constant delay the draws close to one decide: they come as close as one likes to the
largest jitter. -/
theorem constant_delay_fits (ranges : policy.InRange)
    (h : ∀ random, 1 / 2 < random → random < 1 →
      policy.initialDelayS * policy.jitterFactor random ≤ policy.maxDelayS) :
    policy.initialDelayS * (1 + policy.jitterFraction) ≤ policy.maxDelayS := by
  by_contra! hpast
  have hshare : 0 ≤ policy.initialDelayS * policy.jitterFraction :=
    mul_nonneg ranges.initialDelayS ranges.jitterFraction.1
  -- A draw `gap` below one loses twice `gap` of the jitter: less than the excess for a small gap.
  obtain ⟨bound, hbound, hexcess⟩ :=
    exists_pos_mul_lt (sub_pos.mpr hpast) (2 * (policy.initialDelayS * policy.jitterFraction))
  let gap := min bound (1 / 4)
  have hgap : 0 < gap := lt_min hbound (by norm_num)
  have hsmall : gap ≤ 1 / 4 := min_le_right _ _
  have hfits := h (1 - gap) (by linarith) (by linarith)
  have hloss : policy.initialDelayS * policy.jitterFactor (1 - gap) =
      policy.initialDelayS * (1 + policy.jitterFraction) -
        2 * (policy.initialDelayS * policy.jitterFraction) * gap := by
    rw [jitterFactor]
    ring
  have hle : 2 * (policy.initialDelayS * policy.jitterFraction) * gap ≤
      2 * (policy.initialDelayS * policy.jitterFraction) * bound :=
    mul_le_mul_of_nonneg_left (min_le_left _ _) (by linarith)
  linarith

end InRange

/-- An attempt respects the cap if and only if its draw is at most one half, there is no jitter,
the cap is zero, or the delay before the cap leaves room for the jitter. A policy respects it on
every attempt and every draw if and only if it has no jitter, a zero cap or no delay at all, or its
delays do not grow and the largest jitter of the first one fits. -/
theorem respects_cap_iff {policy : ReconnectPolicy} (ranges : policy.InRange) :
    (∀ attempt random, 0 ≤ random → random < 1 →
      (policy.RespectsCap attempt random ↔
        random ≤ 1 / 2 ∨ policy.jitterFraction = 0 ∨ policy.maxDelayS = 0 ∨
          policy.initialDelayS * policy.multiplier ^ attempt * policy.jitterFactor random ≤
            policy.maxDelayS)) ∧
    ((∀ attempt random, 0 ≤ random → random < 1 → policy.RespectsCap attempt random) ↔
      policy.jitterFraction = 0 ∨ policy.maxDelayS = 0 ∨ policy.initialDelayS = 0 ∨
        policy.multiplier = 1 ∧
          policy.initialDelayS * (1 + policy.jitterFraction) ≤ policy.maxDelayS) := by
  refine ⟨fun attempt random h0 _ => ranges.respectsCap_iff attempt h0, ?_, ?_⟩
  · intro h
    by_contra! hnone
    obtain ⟨hjitter, hmax, hinitial, hgrows⟩ := hnone
    have hone : policy.multiplier = 1 := by
      by_contra hne
      obtain ⟨attempt, hpast⟩ := ranges.exists_past_cap hjitter hmax hinitial
        (lt_of_le_of_ne ranges.multiplier (Ne.symm hne))
      exact hpast (h attempt (3 / 4) (by norm_num) (by norm_num))
    refine absurd (ranges.constant_delay_fits ?_) (not_le.mpr (hgrows hone))
    intro random hdraw h1
    have h0 : 0 ≤ random := by linarith
    rcases (ranges.respectsCap_iff 0 h0).mp (h 0 random h0 h1) with hhalf | hzero | hzero | hfits
    · linarith
    · exact absurd hzero hjitter
    · exact absurd hzero hmax
    · simpa using hfits
  · intro h attempt random h0 h1
    rw [ranges.respectsCap_iff attempt h0]
    rcases h with hjitter | hmax | hinitial | ⟨hone, hfits⟩
    · exact Or.inr (Or.inl hjitter)
    · exact Or.inr (Or.inr (Or.inl hmax))
    · simp [hinitial, ranges.maxDelayS]
    · refine Or.inr (Or.inr (Or.inr ?_))
      have hfactor : policy.jitterFactor random ≤ 1 + policy.jitterFraction := by
        have hshare := mul_le_mul_of_nonneg_left (show random * 2 - 1 ≤ 1 by linarith)
          ranges.jitterFraction.1
        rw [jitterFactor]
        linarith
      have hscaled := mul_le_mul_of_nonneg_left hfactor ranges.initialDelayS
      rw [hone, one_pow, mul_one]
      exact hscaled.trans hfits

/-- A constant delay of one second, with the default jitter and cap. -/
theorem respects_cap_constant :
    InRange { multiplier := 1 } ∧ ∀ attempt random, 0 ≤ random → random < 1 →
      RespectsCap { multiplier := 1 } attempt random := by
  have ranges : InRange { multiplier := 1 } := ⟨by norm_num, by norm_num, le_rfl, by norm_num⟩
  refine ⟨ranges, (respects_cap_iff ranges).2.mpr ?_⟩
  norm_num

/-- The default policy waits up to 36 seconds with a cap of 30: attempt 10 has reached the cap, and
the draw nine tenths adds 4.8 seconds. -/
theorem default_policy_past_cap :
    InRange {} ∧ exactDelayFor {} 10 (9 / 10) = 174 / 5 ∧ ¬ RespectsCap {} 10 (9 / 10) := by
  have hdelay : exactDelayFor {} 10 (9 / 10) = 174 / 5 := by
    norm_num [exactDelayFor]
  refine ⟨⟨by norm_num, by norm_num, by norm_num, by norm_num⟩, hdelay, ?_⟩
  rintro ⟨_, hcap⟩
  rw [hdelay] at hcap
  norm_num at hcap

end ReconnectPolicy

end WebSocketPatterns.FaultTolerance

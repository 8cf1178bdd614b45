import IdentityService.Base
import Mathlib.Data.Rat.Floor
import Mathlib.Algebra.Order.Field.Rat
import Mathlib.Tactic.Linarith
import Mathlib.Tactic.NormNum

/-!
# Backoff

`RegistrationRetryPolicy` and `OutboxRetryPolicy`, which have the same checks
and the same formula. Seconds are exact rationals, except that the
power is Python's: it raises once the result passes the largest double.
-/

namespace IdentityService

/-- The largest finite double. -/
def maxDouble : ℚ := (2 ^ 53 - 1) * 2 ^ 971

theorem one_le_maxDouble : 1 ≤ maxDouble := by
  have hpower : (1 : ℚ) ≤ 2 ^ 971 := one_le_pow₀ (by norm_num)
  exact hpower.trans (le_mul_of_one_le_left (by positivity) (by norm_num))

theorem maxDouble_lt : maxDouble < 2 ^ 1024 := by
  have hpower : (2 : ℚ) ^ 1024 = 2 ^ 53 * 2 ^ 971 := by rw [← pow_add]
  have hpos : (0 : ℚ) < 2 ^ 971 := by positivity
  rw [hpower]
  exact mul_lt_mul_of_pos_right (by norm_num) hpos

/-- `x ** n` on floats. -/
def floatPow (x : ℚ) (n : Nat) : Except Exn ℚ :=
  if maxDouble < x ^ n then .error .overflowError else .ok (x ^ n)

/-- A policy that passed `__post_init__`. -/
structure RegistrationRetryPolicy where
  initialSeconds : ℚ
  maxSeconds : ℚ
  exponent : ℚ
  jitterRatio : ℚ
  maxAttempts : Nat
  initialPositive : 0 < initialSeconds
  initialLeMax : initialSeconds ≤ maxSeconds
  exponentAtLeastOne : 1 ≤ exponent
  jitterRange : 0 ≤ jitterRatio ∧ jitterRatio ≤ 1
  attemptsPositive : 0 < maxAttempts

/-- `delay_seconds`. -/
def RegistrationRetryPolicy.delaySeconds (policy : RegistrationRetryPolicy) (attempt : Nat)
    (jitterSample : ℚ) : Except Exn ℚ := do
  let growth ← floatPow policy.exponent (attempt - 1)
  let capped := min policy.maxSeconds (policy.initialSeconds * growth)
  let jittered := capped * (1 + policy.jitterRatio * jitterSample)
  return min policy.maxSeconds (max (1 / 10) jittered)

/-- The relay's policy. -/
abbrev OutboxRetryPolicy := RegistrationRetryPolicy

/-- `timedelta(seconds=x)`: to the nearest microsecond, ties to even. -/
def micros (seconds : ℚ) : Int :=
  let x := seconds * 1000000
  let below := x.floor
  if x - below < 1 / 2 then below
  else if 1 / 2 < x - below then below + 1
  else if below % 2 = 0 then below else below + 1

/-! ## Delays

The cap comes after the power, so a policy whose power overflows has no
delay at all for its late attempts, where `max_seconds` was meant. -/

namespace RegistrationRetryPolicy

variable (policy : RegistrationRetryPolicy) {attempt attempt' : Nat} {jitterSample d d' : ℚ}

/-- The delay before it is bounded. -/
def jittered (attempt : Nat) (jitterSample : ℚ) : ℚ :=
  min policy.maxSeconds (policy.initialSeconds * policy.exponent ^ (attempt - 1)) *
    (1 + policy.jitterRatio * jitterSample)

/-- What is wanted of a delay. -/
structure InRange (d : ℚ) : Prop where
  positive : 0 < d
  capped : d ≤ policy.maxSeconds
  floored : min (1 / 10) policy.maxSeconds ≤ d

/-- The delays of a policy exist, are in range, and do not shrink. -/
structure Sound : Prop where
  total : ∀ attempt jitterSample, 1 ≤ attempt → attempt < policy.maxAttempts →
    -1 ≤ jitterSample → jitterSample ≤ 1 →
    ∃ d, policy.delaySeconds attempt jitterSample = .ok d ∧ policy.InRange d
  monotone : ∀ attempt attempt' jitterSample d d', 1 ≤ attempt → attempt ≤ attempt' →
    attempt' < policy.maxAttempts → -1 ≤ jitterSample → jitterSample ≤ 1 →
    policy.delaySeconds attempt jitterSample = .ok d →
    policy.delaySeconds attempt' jitterSample = .ok d' → d ≤ d'

variable {policy}

theorem maxSeconds_pos : 0 < policy.maxSeconds :=
  lt_of_lt_of_le policy.initialPositive policy.initialLeMax

theorem power_le {n m : Nat} (h : n ≤ m) : policy.exponent ^ n ≤ policy.exponent ^ m :=
  pow_le_pow_right₀ policy.exponentAtLeastOne h

/-- There is a delay as long as the power is a double. -/
theorem delaySeconds_eq : policy.delaySeconds attempt jitterSample =
    if maxDouble < policy.exponent ^ (attempt - 1) then .error .overflowError
    else .ok (min policy.maxSeconds (max (1 / 10) (policy.jittered attempt jitterSample))) := by
  unfold delaySeconds floatPow
  split
  · rfl
  · rfl

theorem delaySeconds_ok (h : policy.delaySeconds attempt jitterSample = .ok d) :
    d = min policy.maxSeconds (max (1 / 10) (policy.jittered attempt jitterSample)) := by
  rw [delaySeconds_eq] at h
  split at h
  · cases h
  · cases h
    rfl

theorem inRange (x : ℚ) : policy.InRange (min policy.maxSeconds (max (1 / 10) x)) where
  positive := by
    have hmax := policy.maxSeconds_pos
    exact lt_min hmax (lt_max_of_lt_left (by norm_num))
  capped := min_le_left _ _
  floored := by
    rw [min_comm]
    exact min_le_min_left _ (le_max_left _ _)

/-- Jitter never turns the sign, so a longer delay stays longer. -/
theorem jittered_mono (h : attempt ≤ attempt') (hlow : -1 ≤ jitterSample) :
    policy.jittered attempt jitterSample ≤ policy.jittered attempt' jitterSample := by
  have hfactor : 0 ≤ 1 + policy.jitterRatio * jitterSample := by
    obtain ⟨hratio, hratio'⟩ := policy.jitterRange
    nlinarith
  refine mul_le_mul_of_nonneg_right (min_le_min_left _ ?_) hfactor
  exact mul_le_mul_of_nonneg_left (power_le (by omega)) policy.initialPositive.le

theorem delaySeconds_mono (h : attempt ≤ attempt') (hlow : -1 ≤ jitterSample)
    (hd : policy.delaySeconds attempt jitterSample = .ok d)
    (hd' : policy.delaySeconds attempt' jitterSample = .ok d') : d ≤ d' := by
  rw [delaySeconds_ok hd, delaySeconds_ok hd']
  exact min_le_min_left _ (max_le_max_left _ (jittered_mono h hlow))

end RegistrationRetryPolicy

/-- **Backoff.** A policy's delays are as wanted exactly when the power of
its last retry is a double. -/
theorem backoff_sound_iff (policy : OutboxRetryPolicy) :
    policy.Sound ↔ policy.exponent ^ (policy.maxAttempts - 2) ≤ maxDouble := by
  constructor
  · intro h
    by_cases hone : policy.maxAttempts ≤ 1
    · have hzero : policy.maxAttempts - 2 = 0 := by omega
      rw [hzero, pow_zero]
      exact one_le_maxDouble
    · -- the last retry has a delay
      obtain ⟨d, hd, -⟩ := h.total (policy.maxAttempts - 1) 0 (by omega) (by omega) (by norm_num)
        (by norm_num)
      rw [RegistrationRetryPolicy.delaySeconds_eq] at hd
      split at hd
      · cases hd
      · rename_i hpower
        have hsteps : policy.maxAttempts - 1 - 1 = policy.maxAttempts - 2 := by omega
        rw [hsteps] at hpower
        exact not_lt.mp hpower
  · intro hlast
    refine ⟨fun attempt jitterSample hfirst hless _ _ => ?_, ?_⟩
    · have hpower : ¬ maxDouble < policy.exponent ^ (attempt - 1) :=
        not_lt.mpr ((RegistrationRetryPolicy.power_le (by omega)).trans hlast)
      refine ⟨_, ?_, RegistrationRetryPolicy.inRange (policy.jittered attempt jitterSample)⟩
      rw [RegistrationRetryPolicy.delaySeconds_eq, if_neg hpower]
    · intro attempt attempt' jitterSample d d' _ hle _ hlow _ hd hd'
      exact RegistrationRetryPolicy.delaySeconds_mono hle hlow hd hd'

namespace Sample

/-- The defaults, with a patient operator. -/
def patient : OutboxRetryPolicy :=
  ⟨1, 60, 2, 1 / 5, 2000, by norm_num, by norm_num, by norm_num, by norm_num, by norm_num⟩

end Sample

/-- The 1025th attempt has no delay. -/
theorem backoff_overflows : 1025 < Sample.patient.maxAttempts ∧
    Sample.patient.delaySeconds 1025 0 = .error .overflowError ∧ ¬ Sample.patient.Sound := by
  have hpower : maxDouble < Sample.patient.exponent ^ (1025 - 1) := maxDouble_lt
  have hraise : Sample.patient.delaySeconds 1025 0 = .error .overflowError := by
    rw [RegistrationRetryPolicy.delaySeconds_eq, if_pos hpower]
  refine ⟨by norm_num [Sample.patient], hraise, fun h => ?_⟩
  obtain ⟨d, hd, -⟩ := h.total 1025 0 (by norm_num) (by norm_num [Sample.patient]) (by norm_num)
    (by norm_num)
  rw [hraise] at hd
  cases hd

end IdentityService

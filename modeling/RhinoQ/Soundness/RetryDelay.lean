import RhinoQ.Model.Job.Retry

/-! # The delay before a retry

The loop doubles the delay up to the cap. It asks for the cap after the multiplication, so a delay that is
doubled from 2^62 nanoseconds or more has turned negative by then.
-/

namespace RhinoQ.Model.Retry

open Duration

/-- No delay that the loop doubles is as long as 2^62 nanoseconds. -/
def Doubles (base maxDelay : ℤ) : Prop :=
  ∀ k, k = 0 ∨ maxDelay = 0 ∨ base * 2 ^ k < maxDelay → base * 2 ^ k < 2 ^ 62

theorem doubled_of_lt {delay : ℤ} (positive : 0 ≤ delay) (small : delay < 2 ^ 62) : doubled delay = delay * 2 := by
  apply Int.bmod_eq_of_le <;> omega

theorem doubled_neg {delay : ℤ} (large : 2 ^ 62 ≤ delay) (fits : delay < 2 ^ 63) : doubled delay < 0 := by
  rw [doubled, Int.bmod_def]
  norm_num
  split <;> omega

theorem backoff_zero (maxDelay : ℤ) (rounds : ℕ) : backoff maxDelay 0 rounds = 0 := by
  induction rounds with
  | zero => rfl
  | succ rounds ih =>
    have same : doubled 0 = 0 := rfl
    rw [backoff, same, if_neg (by omega), ih]

section
variable {base maxDelay : ℤ} (positive : 0 ≤ base)
include positive

theorem double_le (rounds : ℕ) : base * 2 ≤ base * 2 * 2 ^ rounds :=
  le_mul_of_one_le_right (by omega) (one_le_pow₀ (by norm_num))

/-- Without a wrap the delay is the doubled base below the cap. -/
theorem capped_eq_min (cap : 0 ≤ maxDelay) (doubles : Doubles base maxDelay) (rounds : ℕ) :
    (if 0 < maxDelay ∧ maxDelay < backoff maxDelay base rounds then maxDelay else backoff maxDelay base rounds) =
      min (base * 2 ^ rounds) maxDelay := by
  rcases cap.eq_or_lt with rfl | capped
  · -- without a cap only the delay 0 never wraps
    obtain rfl : base = 0 := by
      have bounded := doubles 62 (.inr (.inl rfl))
      omega
    rw [backoff_zero, zero_mul, min_self, if_neg (by omega)]
  induction rounds generalizing base with
  | zero =>
    rw [backoff, pow_zero, mul_one]
    split <;> omega
  | succ rounds ih =>
    have small : base < 2 ^ 62 := by simpa using doubles 0 (.inl rfl)
    rw [backoff, doubled_of_lt positive small, pow_succ', ← mul_assoc]
    by_cases reached : maxDelay ≤ base * 2
    · simp only [capped, reached, and_self, if_true, lt_irrefl, and_false, if_false]
      exact (min_eq_right (reached.trans (double_le positive rounds))).symm
    · simp only [reached, and_false, if_false]
      refine ih (by omega) fun k below => ?_
      have next := doubles (k + 1)
      rw [pow_succ', ← mul_assoc] at next
      refine next (.inr (below.elim ?_ id))
      rintro rfl
      omega

/-- A delay of 2^62 nanoseconds that is doubled turns negative. -/
theorem doubles_of_nonneg (fits : base < 2 ^ 63) (sane : ∀ rounds, 0 ≤ backoff maxDelay base rounds) :
    Doubles base maxDelay := by
  have small {base : ℤ} (fits : base < 2 ^ 63) (first : 0 ≤ backoff maxDelay base 1) : base < 2 ^ 62 := by
    by_contra large
    have negative := doubled_neg (not_lt.mp large) fits
    rw [backoff, if_neg (by omega), backoff] at first
    omega
  intro k reached
  induction k generalizing base with
  | zero => simpa using small fits (sane 1)
  | succ k ih =>
    rw [pow_succ' 2 k, ← mul_assoc] at reached ⊢
    have small := small fits (sane 1)
    have grown := double_le positive k
    refine ih (by omega) (by omega) (fun rounds => ?_) (by omega)
    have later := sane (rounds + 1)
    rwa [backoff, doubled_of_lt positive small, if_neg (by omega)] at later

end

/-- Without jitter, the delays of a policy are never negative, lie between base and cap, and never decrease,
exactly when no delay of 2^62 nanoseconds is doubled. -/
theorem delay_sane_iff {p : Policy} (plain : p.jitter = 0) (positive : 0 ≤ p.baseDelay) (fits : p.baseDelay < 2 ^ 63)
    (cap : 0 ≤ p.maxDelay) (sample : ℚ) : (∀ attempt, 1 ≤ attempt → 0 ≤ p.delay sample attempt ∧
        (0 < p.maxDelay → p.delay sample attempt ≤ p.maxDelay ∧ min p.baseDelay p.maxDelay ≤ p.delay sample attempt) ∧
        ∀ later, attempt ≤ later → p.delay sample attempt ≤ p.delay sample later) ↔ Doubles p.baseDelay p.maxDelay := by
  have jitterless (delay : Duration) : p.applyJitter sample delay = delay := if_pos (.inr plain.le)
  constructor
  · refine fun sane => doubles_of_nonneg positive fits fun rounds => ?_
    have later := (sane (rounds + 1) (by omega)).1
    rw [Policy.delay, jitterless, add_sub_cancel_right, Int.toNat_natCast] at later
    split at later
    next beyond => exact (beyond.1.trans beyond.2).le
    next => exact later
  · intro doubles
    have closed (attempt : ℤ) : p.delay sample attempt = min (p.baseDelay * 2 ^ (attempt - 1).toNat) p.maxDelay :=
      (jitterless _).trans (capped_eq_min positive cap doubles _)
    have grows (first second : ℤ) (before : first ≤ second) :
        p.baseDelay * 2 ^ (first - 1).toNat ≤ p.baseDelay * 2 ^ (second - 1).toNat :=
      mul_le_mul_of_nonneg_left (pow_le_pow_right₀ (by norm_num) (Int.toNat_le_toNat (by omega))) positive
    intro attempt counted
    have base : p.baseDelay ≤ p.baseDelay * 2 ^ (attempt - 1).toNat := by simpa using grows 1 attempt counted
    simp only [closed]
    refine ⟨le_min (positive.trans base) cap, fun _ => ⟨min_le_right _ _, min_le_min_right _ base⟩, fun later before => ?_⟩
    exact min_le_min_right _ (grows attempt later before)

/-- The policy with a first delay of one second and this cap. -/
def patient (maxDelay : Duration) : Policy := { maxAttempts := 40, baseDelay := second, maxDelay }

theorem patient_minute_sane : 0 ≤ (patient minute).delay 0 35 ∧ (patient minute).delay 0 35 ≤ minute := by
  have doubles : Doubles second minute := by
    rintro k (rfl | uncapped | below)
    · decide
    · cases uncapped
    · exact below.trans (by decide)
  have sane := (delay_sane_iff (p := patient minute) rfl (by decide) (by decide) (by decide) 0).mpr doubles 35 (by decide)
  exact ⟨sane.1, (sane.2.1 (by decide)).1⟩

/-- Without a cap, the delay of the thirty-fifth attempt is negative. -/
theorem patient_uncapped_negative :
    (patient 0).delay 0 34 = 8589934592000000000 ∧ (patient 0).delay 0 35 = -1266874889709551616 := by
  decide +kernel

end RhinoQ.Model.Retry

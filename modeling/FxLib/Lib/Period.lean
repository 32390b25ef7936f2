import Mathlib.Algebra.Order.Ring.Int
import Mathlib.Data.Int.Order.Basic
import Mathlib.Order.Bounds.Defs
import Mathlib.Tactic.Ring

/-!
# Instants of a period

The instants at a whole number of periods from an origin, and the first of them behind a given one.
-/

namespace Period

/-- The instants behind `now`. -/
def Behind (origin period now : ℤ) : Set ℤ := {t | now < t ∧ period ∣ t - origin}

def next (origin period now : ℤ) : ℤ := origin + ((now - origin) / period + 1) * period

variable {origin period now t : ℤ}

theorem lt_next (hperiod : 0 < period) : now < next origin period now := by
  have hlt := Int.lt_ediv_add_one_mul_self (now - origin) hperiod
  rw [next]
  omega

theorem period_le_next (hperiod : 0 < period) (hnow : origin ≤ now) :
    origin + period ≤ next origin period now := by
  have hquot : 0 ≤ (now - origin) / period := Int.ediv_nonneg (by omega) hperiod.le
  have hmul : 1 * period ≤ ((now - origin) / period + 1) * period :=
    mul_le_mul_of_nonneg_right (by omega) hperiod.le
  rw [next]
  omega

theorem isLeast_next (hperiod : 0 < period) :
    IsLeast (Behind origin period now) (next origin period now) := by
  refine ⟨⟨lt_next hperiod, ?_⟩, ?_⟩
  · rw [next, add_sub_cancel_left]
    exact Dvd.intro_left _ rfl
  · rintro t ⟨hlt, k, hk⟩
    -- `t` is the instant of the number `k`, and a number not above the quotient is not behind `now`
    have hquot : (now - origin) / period < k := by
      refine Int.ediv_lt_of_lt_mul hperiod ?_
      rw [mul_comm]
      omega
    have hmul : ((now - origin) / period + 1) * period ≤ k * period :=
      mul_le_mul_of_nonneg_right hquot hperiod.le
    rw [next]
    rw [mul_comm] at hk
    omega

/-- There is one instant in every stretch of a period. -/
theorem next_eq (hlt : now < t) (hle : t ≤ now + period) (hdvd : period ∣ t - origin) :
    next origin period now = t := by
  have hperiod : 0 < period := by omega
  obtain ⟨k, hk⟩ := hdvd
  have hquot : (now - origin) / period = k - 1 := by
    refine (Int.ediv_eq_iff_of_pos hperiod).mpr ⟨?_, ?_⟩ <;> ring_nf at hk ⊢ <;> omega
  rw [next, hquot, sub_add_cancel, mul_comm]
  omega

/-- The remainder taken off and a period added. -/
theorem next_eq_emod (origin period now : ℤ) :
    origin + (now - origin - (now - origin) % period + period) = next origin period now := by
  have hdiv := Int.emod_add_mul_ediv (now - origin) period
  rw [next, add_mul, one_mul, mul_comm]
  omega

/-- The same in a coarser unit, of which the period is a multiple. -/
theorem next_eq_unit {unit : ℤ} (hunit : 0 ≤ unit) (origin period now : ℤ) :
    origin + ((now - origin) / unit - (now - origin) / unit % period + period) * unit =
      next origin (unit * period) now := by
  have hcoarse := next_eq_emod 0 period ((now - origin) / unit)
  rw [sub_zero, zero_add] at hcoarse
  rw [hcoarse, next, next, zero_add, sub_zero, Int.ediv_ediv_of_nonneg hunit]
  ring

end Period

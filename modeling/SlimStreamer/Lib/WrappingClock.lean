import SlimStreamer.Lib.ClockEstimate
import Mathlib.Tactic.LinearCombination
import Mathlib.Tactic.Linarith

/-!
# Estimating a clock that wraps

A remote counter of milliseconds starts over after `m` of them.  An estimate of its offset that was
made after `w` wraps is too large by `w` periods.  Modulo the period a start time does not show it;
but a mean of two estimates has the mean of their wraps, which has to be a whole number.

* `Near` — an estimate, whichever way it was cut; `near_periods`;
* `CloseModulo` — two numbers that differ by little modulo the period;
* `Near.mean`, `Near.close` — a mean with whole wraps leads to the start time of one estimate;
* `whole_of_close` — and no other mean does.
-/

namespace ClockEstimate

variable {m y : ℤ}

/-! ### Estimates -/

/-- An estimate in microseconds of a difference of `y` nanoseconds: up to one millisecond more, and
cut in either direction. -/
def Near (estimate y : ℤ) : Prop := y / 1000 ≤ estimate ∧ estimate ≤ (y + 1000998) / 1000

theorem Estimates.near {estimate : ℤ} (h : Estimates estimate y) : Near estimate y := by
  rcases le_or_gt 0 y with hy | hy
  · obtain ⟨hlow, hhigh⟩ := h.of_nonneg hy
    constructor <;> omega
  · obtain ⟨hlow, hhigh⟩ := h.of_neg hy
    constructor <;> omega

/-- Whole periods shift the bounds. -/
theorem near_periods (estimate y w m : ℤ) :
    Near estimate (y + w * (1000000 * m)) ↔
      y / 1000 + w * (1000 * m) ≤ estimate ∧ estimate ≤ (y + 1000998) / 1000 + w * (1000 * m) := by
  have hns : w * (1000000 * m) = 1000000 * (w * m) := by ring
  have hus : w * (1000 * m) = 1000 * (w * m) := by ring
  rw [Near, hns, hus]
  generalize w * m = q
  constructor
  · rintro ⟨hlow, hhigh⟩
    constructor <;> omega
  · rintro ⟨hlow, hhigh⟩
    constructor <;> omega

section Mean

variable {v w x z i j : ℤ}

/-- **A mean of two estimates** is one, with the mean of their wraps, if that is a whole number. -/
theorem Near.mean {k : ℤ} (hv : 0 ≤ v) (hw : 0 ≤ w) (hpos : 0 < v + w)
    (hx : Near x (y + i * (1000000 * m))) (hz : Near z (y + j * (1000000 * m)))
    (hwhole : i * v + j * w = k * (v + w)) :
    Near ((x * v + z * w).tdiv (v + w)) (y + k * (1000000 * m)) := by
  rw [near_periods] at hx hz ⊢
  have hshift : i * (1000 * m) * v + j * (1000 * m) * w = k * (1000 * m) * (v + w) := by
    linear_combination (1000 * m) * hwhole
  exact mean_shifted hv hw hpos hx hz hshift

/-- The mean of a constant. -/
theorem mean_const (hpos : 0 < v + w) (x : ℤ) : (x * v + x * w).tdiv (v + w) = x := by
  rw [← mul_add, Int.mul_tdiv_cancel x (ne_of_gt hpos)]

end Mean

/-! ### Start times -/

/-- Two numbers differ by at most `d`, modulo the period. -/
def CloseModulo (m d a b : ℤ) : Prop := ∃ k, |a - b - k * m| ≤ d

theorem closeModulo_emod_left {d a b : ℤ} : CloseModulo m d (a % m) b ↔ CloseModulo m d a b := by
  have hdiv : a % m = a - a / m * m := by
    have hsum := Int.emod_add_mul_ediv a m
    linear_combination hsum
  constructor
  · rintro ⟨k, hk⟩
    refine ⟨k + a / m, ?_⟩
    have heq : a - b - (k + a / m) * m = a % m - b - k * m := by rw [hdiv]; ring
    rwa [heq]
  · rintro ⟨k, hk⟩
    refine ⟨k - a / m, ?_⟩
    have heq : a % m - b - (k - a / m) * m = a - b - k * m := by rw [hdiv]; ring
    rwa [heq]

/-- Cutting to a coarser unit loses less than one of it. -/
theorem cut_bounds {u : ℤ} (hu : 0 < u) (n : ℤ) :
    n - u < n.tdiv u * u ∧ n.tdiv u * u < n + u := by
  have hsum := Int.tmod_add_mul_tdiv n u
  have hlow := Int.lt_tmod_of_pos n hu
  have hhigh := Int.tmod_lt_of_pos n hu
  rw [mul_comm] at hsum
  constructor <;> omega

/-- **The start time by an estimate**, modulo the period: whole wraps do not show. -/
theorem Near.close {x k : ℤ} (h : Near x (y + k * (1000000 * m))) (start : ℤ) :
    CloseModulo m 2 ((start - x * 1000).tdiv 1000000) ((start - y) / 1000000) := by
  refine ⟨-k, ?_⟩
  rw [near_periods] at h
  have hus : k * (1000 * m) = 1000 * (k * m) := by ring
  rw [hus] at h
  obtain ⟨hlow, hhigh⟩ := h
  rw [neg_mul, abs_le]
  generalize k * m = q at *
  rcases le_or_gt 0 (start - x * 1000) with hsign | hsign
  · rw [Int.tdiv_eq_ediv_of_nonneg hsign]
    constructor <;> omega
  · rw [tdiv_of_nonpos hsign.le]
    constructor <;> omega

/-- What the start time says of the estimate. -/
theorem estimate_of_close {x start k : ℤ}
    (h : |(start - x * 1000).tdiv 1000000 - (start - y) / 1000000 - k * m| ≤ 2) :
    y - k * (1000000 * m) - 4000000 ≤ x * 1000 ∧ x * 1000 ≤ y - k * (1000000 * m) + 4000000 := by
  have hns : k * (1000000 * m) = 1000000 * (k * m) := by ring
  obtain ⟨hlow, hhigh⟩ := cut_bounds (u := 1000000) (by decide) (start - x * 1000)
  rw [abs_le] at h
  rw [hns]
  generalize k * m = q at *
  generalize (start - x * 1000).tdiv 1000000 = cut at *
  constructor <;> omega

/-- **No other mean leads to that start time**, when the period is long. -/
theorem whole_of_close {v w x z i j start : ℤ} (hv : 0 ≤ v) (hw : 0 ≤ w) (hpos : 0 < v + w)
    (hm : 6 * (v + w) < m) (hx : Near x (y + i * (1000000 * m)))
    (hz : Near z (y + j * (1000000 * m)))
    (hclose : CloseModulo m 2 ((start - (x * v + z * w).tdiv (v + w) * 1000).tdiv 1000000)
      ((start - y) / 1000000)) : v + w ∣ i * v + j * w := by
  obtain ⟨k, hk⟩ := hclose
  obtain ⟨hlow, hhigh⟩ := estimate_of_close hk
  obtain ⟨hcut, hcut'⟩ := cut_bounds hpos (x * v + z * w)
  generalize (x * v + z * w).tdiv (v + w) = t at *
  -- the bounds of the estimates in nanoseconds, weighted
  have hx₁ : y + i * (1000000 * m) - 999 ≤ x * 1000 := by have := hx.1; omega
  have hx₂ : x * 1000 ≤ y + i * (1000000 * m) + 1000998 := by have := hx.2; omega
  have hz₁ : y + j * (1000000 * m) - 999 ≤ z * 1000 := by have := hz.1; omega
  have hz₂ : z * 1000 ≤ y + j * (1000000 * m) + 1000998 := by have := hz.2; omega
  have hvx₁ := mul_le_mul_of_nonneg_left hx₁ hv
  have hvx₂ := mul_le_mul_of_nonneg_left hx₂ hv
  have hwz₁ := mul_le_mul_of_nonneg_left hz₁ hw
  have hwz₂ := mul_le_mul_of_nonneg_left hz₂ hw
  have ht₁ := mul_le_mul_of_nonneg_left hlow hpos.le
  have ht₂ := mul_le_mul_of_nonneg_left hhigh hpos.le
  -- the wraps of the mean differ from whole ones by less than one period
  have hsmall : |(i * v + j * w + k * (v + w)) * m| < m := by
    rw [abs_lt]
    constructor <;> linarith
  have hzero := Int.eq_zero_of_abs_lt_dvd (dvd_mul_left m _) hsmall
  have hmpos : m ≠ 0 := by omega
  have hwraps := (mul_eq_zero.mp hzero).resolve_right hmpos
  exact ⟨-k, by linear_combination hwraps⟩

end ClockEstimate

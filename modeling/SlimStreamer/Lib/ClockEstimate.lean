import Mathlib.Algebra.Order.Group.Int
import Mathlib.Algebra.Order.Group.Abs
import Mathlib.Tactic.Common
import Mathlib.Tactic.Ring

/-!
# Estimating a clock that ticks

A remote clock is behind the local one by a constant `offset`, and is read in whole ticks.
A reading is asked for at the local time `sent` and made one `latency` later, so the estimate
`sent - reading` is the offset less the latency, up to one tick.  Estimates are cut to a
coarser unit and averaged; all cuts round towards zero.

* `reading_bounds` — one estimate;
* `cut_mem`, `mean_shifted`, `mean_mem` — cutting and averaging do not leave an interval;
* `skew` — the instants that two remote clocks reach for one local time.
-/

namespace ClockEstimate

/-- A clock in whole ticks shows `reading` at a time. -/
def Reads (tick reading time : ℤ) : Prop := reading * tick ≤ time ∧ time < reading * tick + tick

instance (tick reading time : ℤ) : Decidable (Reads tick reading time) :=
  inferInstanceAs (Decidable (_ ∧ _))

/-- The estimate of the offset falls short by the latency, up to one tick. -/
theorem reading_bounds {tick reading sent offset latency : ℤ}
    (h : Reads tick reading (sent + latency - offset)) :
    offset - latency ≤ sent - reading * tick ∧
      sent - reading * tick < offset - latency + tick := by
  obtain ⟨hle, hlt⟩ := h
  constructor <;> omega

/-- Cutting to a coarser unit keeps the order. -/
theorem cut_mem {unit a b x : ℤ} (hunit : 0 < unit) (ha : a ≤ x) (hb : x ≤ b) :
    a.tdiv unit ≤ x.tdiv unit ∧ x.tdiv unit ≤ b.tdiv unit :=
  ⟨Int.tdiv_le_tdiv hunit ha, Int.tdiv_le_tdiv hunit hb⟩

/-- A weighted mean, cut to an integer, of numbers from two intervals that are one interval shifted,
stays in the interval shifted by the mean. -/
theorem mean_shifted {v w a b p q r x y : ℤ} (hv : 0 ≤ v) (hw : 0 ≤ w) (hpos : 0 < v + w)
    (hx : a + p ≤ x ∧ x ≤ b + p) (hy : a + q ≤ y ∧ y ≤ b + q)
    (hr : p * v + q * w = r * (v + w)) :
    a + r ≤ (x * v + y * w).tdiv (v + w) ∧ (x * v + y * w).tdiv (v + w) ≤ b + r := by
  have hmean (c : ℤ) : (c + r) * (v + w) = (c + p) * v + (c + q) * w := by
    rw [Int.add_mul, ← hr]
    ring
  have hlow : (a + r) * (v + w) ≤ x * v + y * w := by
    have h₁ := Int.mul_le_mul_of_nonneg_right hx.1 hv
    have h₂ := Int.mul_le_mul_of_nonneg_right hy.1 hw
    rw [hmean]
    omega
  have hhigh : x * v + y * w ≤ (b + r) * (v + w) := by
    have h₁ := Int.mul_le_mul_of_nonneg_right hx.2 hv
    have h₂ := Int.mul_le_mul_of_nonneg_right hy.2 hw
    rw [hmean]
    omega
  have hcut := cut_mem hpos hlow hhigh
  rwa [Int.mul_tdiv_cancel _ (ne_of_gt hpos), Int.mul_tdiv_cancel _ (ne_of_gt hpos)] at hcut

/-- A weighted mean, cut to an integer, stays in an interval of integers. -/
theorem mean_mem {v w a b x y : ℤ} (hv : 0 ≤ v) (hw : 0 ≤ w) (hpos : 0 < v + w)
    (hx : a ≤ x ∧ x ≤ b) (hy : a ≤ y ∧ y ≤ b) :
    a ≤ (x * v + y * w).tdiv (v + w) ∧ (x * v + y * w).tdiv (v + w) ≤ b := by
  have hmean := mean_shifted (p := 0) (q := 0) (r := 0) hv hw hpos (by simpa using hx)
    (by simpa using hy) (by simp)
  simpa using hmean

/-! ### Nanoseconds, microseconds and milliseconds -/

/-- An estimate in microseconds of a difference of `y` nanoseconds, which is up to one
millisecond more. -/
def Estimates (estimate y : ℤ) : Prop :=
  y.tdiv 1000 ≤ estimate ∧ estimate ≤ (y + 999999).tdiv 1000

theorem Estimates.of_nonneg {estimate y : ℤ} (hy : 0 ≤ y) (h : Estimates estimate y) :
    y - 999 ≤ estimate * 1000 ∧ estimate * 1000 ≤ y + 999999 := by
  obtain ⟨hle, hge⟩ := h
  rw [Int.tdiv_eq_ediv_of_nonneg hy] at hle
  rw [Int.tdiv_eq_ediv_of_nonneg (by omega)] at hge
  constructor <;> omega

/-- Below zero a cut goes up. -/
theorem tdiv_of_nonpos {n unit : ℤ} (hn : n ≤ 0) : n.tdiv unit = -(-n / unit) := by
  rw [← Int.tdiv_eq_ediv_of_nonneg (by omega), Int.neg_tdiv, Int.neg_neg]

theorem Estimates.of_neg {estimate y : ℤ} (hy : y < 0) (h : Estimates estimate y) :
    y ≤ estimate * 1000 ∧ estimate * 1000 ≤ y + 1000998 := by
  obtain ⟨hle, hge⟩ := h
  rw [tdiv_of_nonpos hy.le] at hle
  refine ⟨by omega, ?_⟩
  rcases le_or_gt 0 (y + 999999) with hpos | hneg
  · rw [Int.tdiv_eq_ediv_of_nonneg hpos] at hge
    omega
  · rw [tdiv_of_nonpos hneg.le] at hge
    omega

/-- The local time at which a remote clock reaches the reading that stands for the local time
`start`, by an estimate of its offset. -/
def instant (offset estimate start : ℤ) : ℤ :=
  (start - estimate * 1000).tdiv 1000000 * 1000000 + offset

/-- **The skew of two remote clocks** that are started for one local time: the difference of
their latencies, up to two milliseconds, when both estimates are cut in one direction. -/
theorem skew {offset offset' latency latency' estimate estimate' start : ℤ}
    (h : Estimates estimate (offset - latency)) (h' : Estimates estimate' (offset' - latency'))
    (hside : latency ≤ offset ↔ latency' ≤ offset')
    (hstart : 0 ≤ start - estimate * 1000) (hstart' : 0 ≤ start - estimate' * 1000) :
    |instant offset estimate start - instant offset' estimate' start - (latency - latency')| ≤
      1999998 := by
  rw [instant, instant, Int.tdiv_eq_ediv_of_nonneg hstart, Int.tdiv_eq_ediv_of_nonneg hstart',
    abs_le]
  by_cases hy : latency ≤ offset
  · have hbounds := h.of_nonneg (by omega)
    have hbounds' := h'.of_nonneg (by have := hside.mp hy; omega)
    constructor <;> omega
  · have hbounds := h.of_neg (by omega)
    have hbounds' := h'.of_neg (by
      have hy' : ¬ latency' ≤ offset' := fun hle => hy (hside.mpr hle)
      omega)
    constructor <;> omega

end ClockEstimate

import Mathlib.Data.Int.Init
import Mathlib.Tactic.Common

/-!
# Timestamps and durations

`util::Duration` counts microseconds; here a duration is an integer.  `util::Timestamp` holds
a time point of `std::chrono::high_resolution_clock`, whose tick is one nanosecond, so a
difference of two timestamps is cut to microseconds and a reading in milliseconds is cut to
milliseconds.  All these cuts are `duration_cast`s, which round towards zero (`Int.tdiv`).
-/

namespace SlimStreamer

/-- A time point, in nanoseconds since the epoch of the clock. -/
@[ext] structure Timestamp where
  ns : ℤ
  deriving DecidableEq, Repr

namespace Timestamp

/-- The constructor from a duration since the epoch. -/
def ofDuration (d : ℤ) : Timestamp := ⟨d * 1000⟩

/-- `operator-` for two timestamps. -/
def diff (lhs rhs : Timestamp) : ℤ := (lhs.ns - rhs.ns).tdiv 1000

/-- `operator-` for a timestamp and a duration. -/
def minus (lhs : Timestamp) (duration : ℤ) : Timestamp := ⟨lhs.ns - duration * 1000⟩

/-- `operator+` for a timestamp and a duration. -/
def plus (lhs : Timestamp) (duration : ℤ) : Timestamp := ⟨lhs.ns + duration * 1000⟩

/-- `get(util::milliseconds)`. -/
def milliseconds (t : Timestamp) : ℤ := t.ns.tdiv 1000000

end Timestamp

/-- `static_cast<std::uint32_t>`. -/
def toUInt32 (n : ℤ) : ℕ := (n % 4294967296).toNat

theorem toUInt32_of_range {n : ℤ} (h₀ : 0 ≤ n) (h₁ : n < 4294967296) : (toUInt32 n : ℤ) = n := by
  rw [toUInt32, Int.emod_eq_of_lt h₀ h₁, Int.toNat_of_nonneg h₀]

end SlimStreamer

/-
The clock by which runs are timed. It never goes back, and it counts
nanoseconds; but its full seconds are kept in a signed 64-bit number, so a
time that is too far on is out of its range and cannot be formed.
-/

namespace Toolrun.Clock

/-- The nanoseconds in a millisecond. -/
def nanosPerMilli : Nat := 1000000

/-- The nanoseconds in a second. -/
def nanosPerSecond : Nat := 1000000000

/-- The first reading that is out of range. -/
def limit : Nat := UInt64.size / 2 * nanosPerSecond

/-- The reading that comes so many nanoseconds after another, unless it is out
of range. -/
def after? (reading span : Nat) : Option Nat :=
  if reading + span < limit then some (reading + span) else none

/-- The number of full milliseconds in a span of time, in the 64 bits that it
is shown with. -/
def wholeMillis (span : Nat) : Nat := span / nanosPerMilli % UInt64.size

/-- A span that fits is shown as it is. -/
theorem wholeMillis_of_lt {span : Nat}
    (h : span < UInt64.size * nanosPerMilli) :
    wholeMillis span = span / nanosPerMilli := by
  unfold wholeMillis
  exact Nat.mod_eq_of_lt (Nat.div_lt_of_lt_mul (by rwa [Nat.mul_comm] at h))

/-- A span of at least so many milliseconds that fits is shown as at least so
many. -/
theorem le_wholeMillis {span millis : Nat}
    (hfits : span < UInt64.size * nanosPerMilli)
    (hlong : millis * nanosPerMilli ≤ span) :
    millis ≤ wholeMillis span := by
  rw [wholeMillis_of_lt hfits]
  exact (Nat.le_div_iff_mul_le (by decide)).2 hlong

/-- A clock that has gone for less than half of its range reaches any 64-bit
number of milliseconds. -/
theorem after?_isSome {reading millis : Nat} (hreading : reading ≤ limit / 2)
    (hmillis : millis < UInt64.size) :
    (after? reading (millis * nanosPerMilli)).isSome = true := by
  have hsize : UInt64.size = 18446744073709551616 := rfl
  have hroom : reading + millis * nanosPerMilli < limit := by
    unfold limit nanosPerMilli nanosPerSecond at *
    omega
  unfold after?
  rw [if_pos hroom]
  rfl

end Toolrun.Clock

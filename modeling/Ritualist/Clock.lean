import Mathlib.Data.Int.Order.Basic

/-!
# The two views of time and what a command reads

Spans and monotonic instants are nanosecond counts from an arbitrary origin;
wall-clock dates are signed nanosecond counts. `Duration` arithmetic is exact
here: the source adds with an overflow check, and reaching its bound takes
centuries of monotonic time.

Activities read time through a shared clock, so nothing of it is stored with
them. A reading is what one activity obtains while one command is processed:
both views and the random draws. A command that walks the map reads the clock
once for each activity, so its readings are a function of the activity.
-/

namespace Ritualist

/-- A span of time in nanoseconds. -/
abbrev Duration := Nat

/-- A monotonic point in time. -/
abbrev Instant := Nat

/-- A wall-clock point in time; it may jump in either direction. -/
abbrev DateTime := Int

/-- The elapsed time between two instants, zero when the first is not later. -/
def Instant.saturatingDurationSince (now earlier : Instant) : Duration := now - earlier

/-- Random draws from half-open ranges. The draw from a nonempty range lies in
it; an empty range has no draw in the source, and its value here is arbitrary. -/
structure Rng where
  /-- The draw from `min..max`. -/
  randomRange : Duration → Duration → Duration
  within : ∀ min max, min < max → min ≤ randomRange min max ∧ randomRange min max < max

/-- The generator that always draws the least value of a range. -/
def Rng.least : Rng := ⟨fun min _ => min, fun min _ nonempty => ⟨Nat.le_refl min, nonempty⟩⟩

/-- What one activity reads while one command is processed. -/
structure Reading where
  /-- The monotonic view, `Clock::now`. -/
  now : Instant
  /-- The wall-clock view, `Clock::now_utc`. -/
  nowUtc : DateTime
  /-- The draws made for this activity. -/
  rng : Rng

/-- A reading of both views that draws least values. -/
def Reading.least (now : Instant) (nowUtc : DateTime) : Reading := ⟨now, nowUtc, .least⟩

end Ritualist

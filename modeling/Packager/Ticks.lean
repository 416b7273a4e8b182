import Packager.Media
/-!
# Ticks — nanoseconds and time-base ticks

A track counts time in ticks, `timeBase` of them to the second.  Both conversions round down; a tick count is a 64-bit
number.
-/
namespace Packager

def nanosPerSecond : Nat := 1000000000

/-- Whole ticks in a span of nanoseconds. -/
def nanosToTicks (nanos : Nanos) (timeBase : Nat) : Nat :=
  nanos * timeBase / nanosPerSecond % UInt64.size

/-- Whole nanoseconds in a span of ticks; none when the time base is zero. -/
def ticksToNanos (ticks timeBase : Nat) : Nanos :=
  ticks * nanosPerSecond / timeBase

end Packager

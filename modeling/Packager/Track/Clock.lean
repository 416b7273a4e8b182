import Packager.Ticks
/-!
# Track.Clock — where the frames of a track lie in ticks

A clock counts the ticks of one track from its origin.  It follows the frames at the pace of the frame duration and
jumps to a frame that arrives more than a few frame durations away from where it was expected.
-/
namespace Packager

/-- The tick time line of one track. -/
structure Clock where
  timeBase : Nat
  /-- How many frame durations a frame may be off before the clock jumps to it. -/
  tolerance : Nat
  /-- Time stamp of the first accepted frame. -/
  offset : Option Nanos
  /-- The time stamp that tick zero stands for, when it is not the first frame's own. -/
  origin : Option Nanos
  /-- Duration of a frame in ticks; zero as long as it is unknown. -/
  frameTicks : Nat
  /-- Where the last accepted frame was expected, in ticks. -/
  expected : Nat
  deriving DecidableEq, Repr

/-- Where a frame arrived. -/
structure Arrival where
  ticks : Nat
  /-- Whether the frame was so far off that the clock jumped to it. -/
  drifted : Bool
  deriving DecidableEq, Repr

namespace Clock

/-- A clock before its first frame.  At least one frame duration is always tolerated. -/
def start (timeBase tolerance : Nat) : Clock := ⟨timeBase, max tolerance 1, none, none, 0, 0⟩

/-- The time stamp that tick zero stands for. -/
def zero? (c : Clock) : Option Nanos := c.origin <|> c.offset

/-- The tick of a time stamp; one before tick zero counts as tick zero. -/
def ticksAt (c : Clock) (pts : Nanos) : Nat :=
  match c.zero? with
  | some origin => nanosToTicks (pts - origin) c.timeBase
  | none => 0

/-- Ticks between two points of the time line. -/
def distance (s t : Nat) : Nat := if s ≤ t then t - s else s - t

/-- Takes a frame.  The first one sets the offset, and moves back an origin that lies after it; each later one is
expected one frame duration after the one before, once that duration is known. -/
def accept (c : Clock) (pts : Nanos) : Clock × Arrival :=
  match c.offset with
  | none =>
    let c := { c with offset := some pts, origin := c.origin.map (min pts) }
    let ticks := c.ticksAt pts
    ({ c with expected := ticks }, ⟨ticks, false⟩)
  | some _ =>
    let ticks := c.ticksAt pts
    -- the sum and the product below have no bound here; in 64 bits they wrap around, or stop a build that checks them,
    -- from 2^64 ticks on: after as many ticks of frames, or where that many are tolerated
    let expected := c.expected + c.frameTicks
    if c.frameTicks = 0 then ({ c with expected := ticks }, ⟨ticks, false⟩)
    else if c.frameTicks * c.tolerance < distance ticks expected then
      ({ c with expected := ticks }, ⟨ticks, true⟩)
    else ({ c with expected }, ⟨ticks, false⟩)

/-- Fixes the origin.  Only a clock that has neither an origin nor a frame takes it. -/
def setOrigin (c : Clock) (origin : Nanos) : Bool × Clock :=
  if c.offset.isSome || c.origin.isSome then (false, c) else (true, { c with origin := some origin })

end Clock
end Packager

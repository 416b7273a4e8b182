import Packager.Slot
import Packager.Track.Clock
import Packager.Track.OpenFragment
import Packager.TrackHeader
/-!
# Track.Assembly — what audio and video segmenters have in common

An assembly holds the clock of a track, the frame that waits to be appended and the open fragment.  `close` turns the
open fragment into a media segment in a slot; the samples are gone even when the slot is too small for them.
-/
namespace Packager

/-- How far a segmenter has come. -/
inductive Phase where
  /-- No frame yet. -/
  | uninitialized
  /-- Frames arrive, their duration is not known yet. -/
  | configuring
  /-- Configured, nothing buffered. -/
  | ready
  /-- Samples are in the open fragment. -/
  | accumulating
  /-- A fragment was just closed. -/
  | boundary
  /-- The trailing fragment was closed. -/
  | finishing
  deriving DecidableEq, Repr

def Phase.name : Phase → String
  | uninitialized => "uninitialized"
  | configuring => "configuring"
  | ready => "ready"
  | accumulating => "accumulating"
  | boundary => "boundary"
  | finishing => "finishing"

/-- The fixed parameters of a segmenter. -/
structure SegmenterPlan where
  track : TrackId
  /-- How long a segment should be, in seconds. -/
  seconds : Nat
  /-- Ticks per second. -/
  timeBase : Nat
  /-- How many frame durations a frame may be off. -/
  tolerance : Nat
  /-- Declared bitrate in bits per second. -/
  bitrate : Nat
  deriving DecidableEq, Repr

namespace SegmenterPlan

def default : SegmenterPlan := ⟨0, 2, 12800, 4, 0⟩

/-- How long a segment should be, in ticks.  The product is one of 64-bit numbers: a length that does not fit wraps
around. -/
def target (plan : SegmenterPlan) : Nat := plan.seconds * plan.timeBase % UInt64.size

/-- Whether the length of a segment fits.  Where it does not, a build that checks its arithmetic stops. -/
def Fits (plan : SegmenterPlan) : Prop := plan.seconds * plan.timeBase < UInt64.size

instance (plan : SegmenterPlan) : Decidable plan.Fits := inferInstanceAs (Decidable (_ < _))

end SegmenterPlan

/-- A frame that was taken and waits to be appended to the open fragment. -/
structure Pending where
  /-- Start of the sample in ticks. -/
  start : Nat
  data : Bytes
  isSync : Bool
  deriving DecidableEq, Repr

/-- The state that both kinds of segmenter share. -/
structure Assembly where
  track : TrackId
  seconds : Nat
  /-- How long a segment should be, in ticks. -/
  target : Nat
  clock : Clock
  /-- The codec configuration in the last initialization segment. -/
  metadata : Bytes
  bitrate : Nat
  configured : Bool
  /-- Whether the initialization segment has been made. -/
  described : Bool
  /-- Number of the next media segment; the first is number one. -/
  nextSequence : Nat
  pending : Option Pending
  fragment : OpenFragment
  phase : Phase
  deriving DecidableEq, Repr

/-- What an operation that may fill a slot leaves behind.  The result says whether it filled the slot. -/
structure Outcome (σ : Type) where
  result : Except Failure Bool
  state : σ
  slot : Slot

/-- The track number inside the files; each file holds one track. -/
def soleTrack : UInt32 := 1

namespace Assembly

def start (plan : SegmenterPlan) : Assembly where
  track := plan.track
  seconds := plan.seconds
  target := plan.target
  clock := Clock.start plan.timeBase plan.tolerance
  metadata := []
  bitrate := plan.bitrate
  configured := false
  described := false
  nextSequence := 1
  pending := none
  fragment := .empty
  phase := .uninitialized

/-- Takes the time stamp of a frame. -/
def accept (a : Assembly) (pts : Nanos) : Assembly × Arrival :=
  let (clock, arrival) := a.clock.accept pts
  ({ a with clock, phase := if a.clock.offset.isNone then .configuring else a.phase }, arrival)

/-- Puts a frame up for appending.  The answer is whether no earlier frame was still waiting. -/
def stage (a : Assembly) (pending : Pending) : Bool × Assembly :=
  (a.pending.isNone, { a with pending := some pending })

/-- Sets the frame duration; the segmenter is configured from then on. -/
def configure (a : Assembly) (frameTicks : Nat) : Assembly :=
  { a with
    clock := { a.clock with frameTicks }
    configured := true
    phase := match a.phase with
      | .uninitialized | .configuring => .ready
      | phase => phase }

/-- The duration that a sample starts out with. -/
def sampleTicks (a : Assembly) : UInt32 := .ofNat (min a.clock.frameTicks OpenFragment.longest)

/-- Appends a frame to the open fragment. -/
def push (a : Assembly) (p : Pending) : Assembly :=
  { a with fragment := a.fragment.push p.start ⟨a.sampleTicks, p.isSync, p.data⟩, phase := .accumulating }

/-- Whether the open fragment is as long as a segment should be. -/
def isFull (a : Assembly) : Bool := a.fragment.reaches a.target

/-- The open fragment as a media segment. -/
def segment (a : Assembly) : Fragment where
  trackId := soleTrack
  sequence := .ofNat a.nextSequence
  decodeTime := .ofNat a.fragment.start
  samples := a.fragment.samples

/-- Closes the open fragment into the slot.  A fragment that does not fit is lost, and its number goes to the next. -/
def close (a : Assembly) (slot : Slot) : Outcome Assembly :=
  if a.fragment.isEmpty then ⟨.ok false, a, slot⟩
  else
    match slot.load a.segment.encode a.nextSequence a.fragment.start a.fragment.duration with
    | .error e => ⟨.error e, { a with fragment := .empty }, slot⟩
    | .ok slot =>
      ⟨.ok true, { a with fragment := .empty, nextSequence := a.nextSequence + 1, phase := .boundary }, slot⟩

/-- Writes the initialization segment of a track into the slot. -/
def describe (a : Assembly) (track : TrackDescription) (slot : Slot) : Outcome Assembly :=
  match slot.load track.encode 0 0 0 with
  | .error e => ⟨.error e, a, slot⟩
  | .ok slot => ⟨.ok true, { a with described := true }, slot⟩

/-- Drops what is buffered and asks for a new initialization segment. -/
def flush (a : Assembly) : Assembly :=
  { a with
    fragment := .empty
    pending := none
    described := false
    phase :=
      if a.configured then .ready
      else if a.clock.offset.isSome then .configuring
      else .uninitialized }

end Assembly
end Packager

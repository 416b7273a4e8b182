import Packager.Track.Audio
import Packager.Track.Video
/-!
# Track.Segmenter — from the frames of a track to its segments

A segmenter takes the frames of one track in the order `manage`, `configure`, `describe`, `append`: the frame is
taken, the timing is derived from it, the initialization segment is made once that is possible, and the frame is
appended to the open fragment, which may complete a segment.  `finish` closes what is left.
-/
namespace Packager

/-- What a segmenter knows about the stream of its kind. -/
inductive Stream where
  | audio (stream : AudioStream)
  | video (stream : VideoStream)
  deriving DecidableEq, Repr

/-- The segmenter of one track. -/
structure Segmenter where
  assembly : Assembly
  stream : Stream
  deriving DecidableEq, Repr

namespace Segmenter

def start (kind : Kind) (plan : SegmenterPlan) : Segmenter :=
  ⟨.start plan, match kind with
    | .audio => .audio .start
    | .video => .video .start⟩

def kind (s : Segmenter) : Kind :=
  match s.stream with
  | .audio _ => .audio
  | .video _ => .video

/-- Takes a frame of the segmenter's kind.  The answer is whether the frame before was appended already. -/
def manage (s : Segmenter) (frame : Frame) : Except Failure (Bool × Segmenter) :=
  match s.stream, frame with
  | .audio stream, .audio f => do
    let (isNew, assembly, stream) ← AudioStream.manage s.assembly stream f
    return (isNew, ⟨assembly, .audio stream⟩)
  | .video stream, .video f => do
    let (isNew, assembly, stream) ← VideoStream.manage s.assembly stream f
    return (isNew, ⟨assembly, .video stream⟩)
  | _, _ => .error (.wrongKind s.kind frame.kind)

/-- Derives the timing from the frames taken last. -/
def configure (s : Segmenter) : Except Lack Segmenter := do
  let assembly ← match s.stream with
    | .audio stream => AudioStream.configure s.assembly stream
    | .video stream => VideoStream.configure s.assembly stream
  return { s with assembly }

/-- The codec configuration and the track description for the initialization segment. -/
def description (s : Segmenter) : Except Lack (Bytes × TrackDescription) :=
  match s.stream with
  | .audio stream => .ok (AudioStream.description s.assembly stream)
  | .video stream => VideoStream.description s.assembly stream

/-- Writes the initialization segment into the slot, unless that was done before. -/
def describe (s : Segmenter) (slot : Slot) : Outcome Segmenter :=
  if !s.assembly.configured then ⟨.error .notConfigured, s, slot⟩
  else if s.assembly.described then ⟨.ok false, s, slot⟩
  else
    match s.description with
    | .error lack => ⟨.error (.notReady lack), s, slot⟩
    | .ok (metadata, track) =>
      let out := { s.assembly with metadata }.describe track slot
      ⟨out.result, { s with assembly := out.state }, out.slot⟩

/-- Appends the frames that wait.  The answer is whether that completed a segment into the slot; a slot that still holds
one puts the cut off. -/
def append (s : Segmenter) (slot : Slot) : Outcome Segmenter :=
  if !s.assembly.configured then ⟨.error .notConfigured, s, slot⟩
  else
    match s.stream with
    | .audio stream =>
      let out := AudioStream.append s.assembly stream slot
      ⟨out.result, ⟨out.state.1, .audio out.state.2⟩, out.slot⟩
    | .video stream =>
      let out := VideoStream.append s.assembly stream slot
      ⟨out.result, ⟨out.state.1, .video out.state.2⟩, out.slot⟩

/-- Appends the frames that wait, without cutting. -/
def absorb (s : Segmenter) : Segmenter :=
  match s.stream with
  | .audio stream => ⟨AudioStream.absorb s.assembly, .audio stream⟩
  | .video stream =>
    let (assembly, stream) := VideoStream.absorb s.assembly stream
    ⟨assembly, .video stream⟩

/-- Closes what is buffered, however short, into the slot, which has to be free. -/
def finish (s : Segmenter) (slot : Slot) : Outcome Segmenter :=
  if !slot.isEmpty then ⟨.error (.violation (.finishWhileHolding s.assembly.track)), s, slot⟩
  else
    let s := s.absorb
    let out := s.assembly.close slot
    match out.result with
    | .error e => ⟨.error e, { s with assembly := out.state }, out.slot⟩
    | .ok filled => ⟨.ok filled, { s with assembly := { out.state with phase := .finishing } }, out.slot⟩

/-- Drops what is buffered and asks for a new initialization segment. -/
def flush (s : Segmenter) : Segmenter :=
  ⟨s.assembly.flush, match s.stream with
    | .audio stream => .audio { stream with resync := false }
    | .video stream => .video stream⟩

/-- Counts ticks from `origin` on.  Only a segmenter before its first frame takes an origin, and only once. -/
def setOrigin (s : Segmenter) (origin : Nanos) : Bool × Segmenter :=
  let (taken, clock) := s.assembly.clock.setOrigin origin
  (taken, { s with assembly := { s.assembly with clock } })

def setBitrate (s : Segmenter) (bitrate : Nat) : Segmenter :=
  { s with assembly := { s.assembly with bitrate } }

/-- The codec string for the manifest. -/
def codec (s : Segmenter) : String :=
  match s.stream with
  | .audio stream => stream.codec
  | .video stream => stream.codec

end Segmenter
end Packager

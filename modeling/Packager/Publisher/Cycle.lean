import Packager.Publisher
/-!
# Publisher.Cycle — one frame per track, then the finished segments

A cycle takes at most one frame of every track through its channel and then asks the gate about every finished
segment, video first, so that a video segment of this cycle counts before audio is judged.  The manifest is written
when a segment was published.
-/
namespace Packager

/-- What a cycle did. -/
structure CycleReport where
  /-- The initialization segments written. -/
  headers : List Path
  /-- The segments written and announced. -/
  published : List Path
  /-- The tracks whose segment waits for video. -/
  held : List TrackId
  /-- The tracks whose segment was thrown away. -/
  discarded : List TrackId
  failures : List (TrackId × Failure)
  manifestFailure : Option Failure

def CycleReport.empty : CycleReport := ⟨[], [], [], [], [], none⟩

def CycleReport.fail (r : CycleReport) (id : TrackId) (failure : Failure) : CycleReport :=
  { r with failures := r.failures ++ [(id, failure)] }

namespace Publisher

/-- The earliest time stamp among the frames of registered tracks. -/
def earliest (p : Publisher) (frames : List (TrackId × Frame)) : Option Nanos :=
  ((frames.filter fun f => p.channels.contains f.1).map (·.2.pts)).min?

/-- Fixes the instant that all tracks count from, when there is none yet. -/
def fixOrigin (p : Publisher) (frames : List (TrackId × Frame)) : Publisher :=
  match p.origin, p.earliest frames with
  | none, some origin => { p with origin := some origin, channels := p.channels.mapValues (·.setOrigin origin) }
  | _, _ => p

/-- The segment that a track holds, on the time line that all tracks share. -/
def window? (p : Publisher) (id : TrackId) (c : Channel) : Option Window :=
  c.segmenter.assembly.clock.zero?.map fun tickZero =>
    let timeBase := c.segmenter.assembly.clock.timeBase
    let start := tickZero - p.origin.getD tickZero + ticksToNanos c.slot.timestamp timeBase
    ⟨id, c.kind, start, start + ticksToNanos c.slot.duration timeBase⟩

/-- The tracks that hold a segment, video before audio. -/
def ready (p : Publisher) : List (TrackId × Channel) :=
  let holding := p.channels.entries.filter (·.2.isHolding)
  holding.filter (·.2.kind = .video) ++ holding.filter (·.2.kind = .audio)

variable {m : Type → Type} [Monad m]

/-- Takes the frame of one track. -/
def feed (outlet : Outlet m) (acc : CycleReport × Publisher) (entry : TrackId × Frame) :
    m (CycleReport × Publisher) := do
  let (report, p) := acc
  let (id, frame) := entry
  match p.channels.find? id with
  | none => return (report.fail id (.unknownTrack id), p)
  | some channel =>
    let fed ← channel.feed outlet p.settings id frame
    let report := { report with headers := report.headers ++ fed.header.toList }
    return (match fed.failure with
      | some failure => report.fail id failure
      | none => report, p.setChannel id fed.channel)

/-- Publishes, keeps or throws away the segment that a track holds, as the gate decides. -/
def release (outlet : Outlet m) (acc : CycleReport × Publisher) (entry : TrackId × Channel) :
    m (CycleReport × Publisher) := do
  let (report, p) := acc
  let (id, channel) := entry
  match p.window? id channel with
  | none => return (report, p)
  | some window =>
    let (verdict, gate) := p.gate.judge window
    let p := { p with gate }
    match verdict with
    | .hold => return ({ report with held := report.held ++ [id] }, p)
    | .discard =>
      return ({ report with discarded := report.discarded ++ [id] },
        p.setChannel id { channel with slot := channel.slot.clear })
    | .publish =>
      let (result, channel) ← channel.publish outlet p.settings id
      return (match result with
        | .ok path => { report with published := report.published ++ [path] }
        | .error failure => report.fail id failure, p.setChannel id channel)

/-- Takes one frame of each of some tracks, listed by track, and deals with every segment that is finished. -/
def cycle (outlet : Outlet m) (frames : List (TrackId × Frame)) (p : Publisher) : m (CycleReport × Publisher) := do
  let (report, p) ← frames.foldlM (feed outlet) (.empty, p.fixOrigin frames)
  let (report, p) ← p.ready.foldlM (release outlet) (report, p)
  if report.published.isEmpty then
    return (report, p)
  else
    match ← outlet.writeManifest with
    | .ok () => return (report, p)
    | .error failure => return ({ report with manifestFailure := some failure }, p)

end Publisher
end Packager

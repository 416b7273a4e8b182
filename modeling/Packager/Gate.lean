import Packager.Media
/-!
# Gate — when a finished segment may be published

Video segments are published at once.  When every active video track has published its first one, the latest of their
starts is the common origin, and audio segments that start before it are discarded, so that all tracks begin together.
Until then audio is held.  Without video, or after a drain, audio is published at once.
-/
namespace Packager

/-- A finished segment placed on the time line that all tracks share. -/
structure Window where
  track : TrackId
  kind : Kind
  start : Nanos
  finish : Nanos
  deriving DecidableEq, Repr

/-- What is to become of a finished segment. -/
inductive Verdict where
  | publish
  | hold
  | discard
  deriving DecidableEq, Repr

/-- The gate between finished segments and the disk. -/
structure Gate where
  /-- The active video tracks. -/
  video : List TrackId
  /-- The tracks with a video segment that was let through. -/
  started : List TrackId
  /-- The latest start of a first video segment. -/
  origin : Option Nanos
  audioOnly : Bool
  deriving DecidableEq, Repr

namespace Gate

def empty : Gate := ⟨[], [], none, false⟩

def addTrack (g : Gate) (track : TrackId) (kind : Kind) : Gate :=
  match kind with
  | .video => { g with video := g.video.insert track }
  | .audio => g

def removeTrack (g : Gate) (track : TrackId) : Gate :=
  { g with video := g.video.filter (· != track), started := g.started.filter (· != track) }

/-- Whether there is video and every active video track has started. -/
def videoStarted (g : Gate) : Bool := !g.video.isEmpty && g.video.all (g.started.contains ·)

/-- Lets audio through from now on, whatever video does. -/
def forceAudioOnly (g : Gate) : Gate := { g with audioOnly := true }

/-- How much of a window lies at or after the common origin. -/
def overlap (g : Gate) (w : Window) : Nanos :=
  match g.origin with
  | some origin => w.finish - max w.start origin
  | none => 0

/-- Counts the first window of a video track. -/
def start (g : Gate) (w : Window) : Gate :=
  if g.started.contains w.track then g
  else { g with
    started := g.started.insert w.track
    origin := some (match g.origin with
      | some origin => max origin w.start
      | none => w.start) }

/-- Decides on a window. -/
def judge (g : Gate) (w : Window) : Verdict × Gate :=
  match w.kind with
  | .video => (.publish, g.start w)
  | .audio =>
    if g.audioOnly || g.video.isEmpty then (.publish, g)
    else if !g.videoStarted then (.hold, g)
    else
      match g.origin with
      | some origin => if w.start < origin then (.discard, g) else (.publish, g)
      | none => (.publish, g)

end Gate
end Packager

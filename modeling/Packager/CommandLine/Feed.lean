import Packager.Avc.AccessUnit
import Packager.Aac.Adts
import Packager.Media
import Packager.Number.Binary64
import Packager.Ticks
/-!
# CommandLine.Feed — two elementary streams as one sequence of frames

An ADTS stream and an Annex B stream are cut into frames and stamped from the number of samples and from the frame
rate. Both begin at one second, since a time stamp of zero reads as none.  `merge` puts the frames of both in the
order of their time stamps, audio before video where they are equal.
-/
namespace Packager
namespace CommandLine

def audioTrack : TrackId := 1
def videoTrack : TrackId := 2

/-- The time stamp of the first frame of a stream. -/
def streamStart : Nanos := nanosPerSecond

/-- Samples per channel in a frame of AAC-LC. -/
def samplesPerFrame : Nat := 1024

/-- The number of the frames of a list, from zero. -/
def numbered {α : Type} (items : List α) : List (Nat × α) := (List.range items.length).zip items

/-- The frames of an ADTS stream, each stamped with the time that the samples before it take.  The first header tells the
sampling rate and the channels of all. -/
def timedFrames (data : Bytes) : Except BitstreamFault (List AudioFrame) := do
  match ← Adts.split data with
  | [] => return []
  | first :: rest =>
    match ← Adts.header? first with
    | none => return []
    | some header =>
      return (numbered (first :: rest)).map fun (n, data) =>
        { pts := streamStart + n * samplesPerFrame * nanosPerSecond / header.samplingRate
          sampleRate := header.samplingRate
          channels := header.channelConfig
          samples := samplesPerFrame
          data }

/-- A time stamp whose nanoseconds since the start of the stream are a 64-bit number; what does not fit wraps around. -/
def wrapStamp (pts : Nanos) : Nanos := streamStart + (pts - streamStart) % UInt64.size

/-- The frames of an ADTS stream as they are fed. -/
def audioFrames (data : Bytes) : Except BitstreamFault (List AudioFrame) := do
  return (← timedFrames data).map fun f => { f with pts := wrapStamp f.pts }

/-- A number of seconds in nanoseconds, to the nearest; none when the seconds need more than 64 bits. -/
def nanos? : Binary64 → Option Nanos
  | .finite _ m e =>
    let (num, den) := if 0 ≤ e then (m <<< e.toNat, 1) else (m, 1 <<< (-e).toNat)
    if num < UInt64.size * den then some (Binary64.roundHalfEven (num * nanosPerSecond) den) else none
  | _ => none

/-- The frames of an Annex B stream at a frame rate; none when a time stamp is too large. -/
def videoFrames (data : Bytes) (frameRate : Binary64) (width height : Nat) : Option (List VideoFrame) :=
  (numbered (AccessUnit.split data)).mapM fun (n, data) => do
    let elapsed ← nanos? (Binary64.natDiv n frameRate)
    return { pts := streamStart + elapsed, width, height, data }

/-- The frames of both streams in presentation order. -/
def merge (audio : List AudioFrame) (video : List VideoFrame) : List (TrackId × Frame) :=
  List.merge (audio.map fun f => (audioTrack, .audio f)) (video.map fun f => (videoTrack, .video f))
    fun a b => a.2.pts ≤ b.2.pts

end CommandLine
end Packager

import Packager.Bytes
/-!
# Media — tracks and the frames they deliver

A track carries audio or video.  A frame is one encoded unit of a track with its presentation time stamp in nanoseconds:
an AAC access unit, raw or with an ADTS header, or an H.264 access unit as an Annex B byte stream.
-/
namespace Packager

/-- What a track carries. -/
inductive Kind where
  | audio
  | video
  deriving DecidableEq, Repr, Inhabited

/-- The number of a track; it doubles as the id of the track's representation. -/
abbrev TrackId := Nat

/-- A point or span on a media time line, in nanoseconds. -/
abbrev Nanos := Nat

namespace Kind

def name : Kind → String
  | audio => "audio"
  | video => "video"

end Kind

/-- One encoded audio frame.  A rate or a channel count of zero means that the ADTS header is to tell. -/
structure AudioFrame where
  pts : Nanos
  sampleRate : Nat
  channels : Nat
  /-- Samples per channel that the frame carries, 1024 for AAC-LC. -/
  samples : Nat
  data : Bytes

/-- One encoded picture with the parameter sets that come with it. -/
structure VideoFrame where
  pts : Nanos
  width : Nat
  height : Nat
  data : Bytes

inductive Frame where
  | audio (frame : AudioFrame)
  | video (frame : VideoFrame)

namespace Frame

def kind : Frame → Kind
  | audio _ => .audio
  | video _ => .video

def pts : Frame → Nanos
  | audio f => f.pts
  | video f => f.pts

def data : Frame → Bytes
  | audio f => f.data
  | video f => f.data

end Frame
end Packager

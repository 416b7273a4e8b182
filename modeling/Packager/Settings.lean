import Packager.Slot
import Packager.Track.Assembly
/-!
# Settings — how a publisher is set up

The settings name the output, and say how long segments are, how time is counted and what the manifest keeps.
`Settings.check` refuses those that nothing could be published with.
-/
namespace Packager

/-- How segments are made. -/
structure SegmentSettings where
  /-- How long a segment should be, in seconds. -/
  seconds : Nat
  /-- Ticks per second of video tracks. -/
  videoTimeBase : Nat
  /-- Ticks per second of audio tracks. -/
  audioTimeBase : Nat
  /-- Capacity of a slot in bytes. -/
  maxBytes : Nat
  /-- How many frame durations a frame may be off. -/
  tolerance : Nat
  deriving DecidableEq, Repr

/-- What the manifest says and keeps. -/
structure ManifestSettings where
  minBufferSeconds : Nat
  /-- How many segments a time line keeps; zero keeps all. -/
  maxSegments : Nat
  deriving DecidableEq, Repr

/-- The settings of a publisher. -/
structure Settings where
  folder : Path
  /-- What the name of every file starts with. -/
  baseName : String
  segment : SegmentSettings
  manifest : ManifestSettings
  logLevel : String
  logFormat : String
  deriving DecidableEq, Repr

namespace Settings

def default : Settings where
  folder := ⟨"dash"⟩
  baseName := "stream"
  segment := ⟨2, 12800, 12800, Slot.defaultCapacity, 4⟩
  manifest := ⟨2, 5⟩
  logLevel := "info"
  logFormat := "pretty"

/-- The characters of a base name: ASCII letters and digits, underscore, point and hyphen. -/
def isNameChar (c : Char) : Bool := c.isAlphanum || c == '_' || c == '.' || c == '-'

def isBaseName (name : String) : Bool := !name.isEmpty && name.toList.all isNameChar

def checkBaseName (name : String) : Except SettingsFault Unit :=
  if isBaseName name then .ok () else .error (.baseName name)

/-- Refuses settings that cannot work; the first fault is told. -/
def check (s : Settings) : Except SettingsFault Unit := do
  checkBaseName s.baseName
  if s.segment.seconds = 0 then throw .segmentDuration
  if s.segment.videoTimeBase = 0 ∨ s.segment.audioTimeBase = 0 then throw .timeBase
  if s.segment.maxBytes = 0 then throw .capacity

/-- Ticks per second of the tracks of a kind. -/
def timeBase (s : Settings) : Kind → Nat
  | .video => s.segment.videoTimeBase
  | .audio => s.segment.audioTimeBase

/-- The parameters of the segmenter of a new track. -/
def plan (s : Settings) (track : TrackId) (kind : Kind) : SegmenterPlan where
  track := track
  seconds := s.segment.seconds
  timeBase := s.timeBase kind
  tolerance := s.segment.tolerance
  bitrate := 0

/-- The manifest file. -/
def manifestPath (s : Settings) : Path := s.folder.join (s.baseName ++ ".mpd")

end Settings
end Packager

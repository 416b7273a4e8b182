import Packager.Aac.Adts
import Packager.Data
import Packager.Disk
import Packager.Media
/-!
# Failure — why an operation did not succeed

A `Failure` is a cause with what belongs to it.  Its category decides whether the track goes on with the next frame and
how the message starts; `Failure.message` is the whole wording.
-/
namespace Packager

/-- What a segmenter still has to learn before its timing or its codec is known. -/
inductive Lack where
  | timestamp
  | sampleCount
  | sampleRate
  | frameOfOneTick
  | sps
  | pps
  | pictureSize
  | secondFrame
  | advancingTimestamps
  | parameterSets
  deriving DecidableEq, Repr

def Lack.message : Lack → String
  | timestamp => "no presentation timestamp yet"
  | sampleCount => "no sample count yet"
  | sampleRate => "no sample rate yet"
  | frameOfOneTick => "frame shorter than one tick"
  | sps => "waiting for SPS"
  | pps => "waiting for PPS"
  | pictureSize => "unknown picture size"
  | secondFrame => "need two frames to derive frame duration"
  | advancingTimestamps => "frame timestamps do not advance"
  | parameterSets => "parameter sets missing"

/-- A rule of the publisher that an operation would break. -/
inductive Violation where
  | finishWhileHolding (track : TrackId)
  | reconfigureWithTracks (count : Nat)
  deriving DecidableEq, Repr

def Violation.message : Violation → String
  | finishWhileHolding track => s!"track {track}: finish requested while a fragment awaits publication"
  | reconfigureWithTracks count => s!"cannot reconfigure with {count} active tracks"

/-- A setting that the publisher cannot work with. -/
inductive SettingsFault where
  | baseName (name : String)
  | segmentDuration
  | timeBase
  | capacity
  deriving DecidableEq, Repr

def SettingsFault.message : SettingsFault → String
  | baseName name => "invalid base name " ++ Quoted.quote name
  | segmentDuration => "segment duration must be at least 1 second"
  | timeBase => "time base must be non-zero"
  | capacity => "segment buffers need a non-zero capacity"

/-- Why a manifest could not be written. -/
inductive ManifestFault where
  | cannotWrite (path : Path) (error : IoError)
  | refused
  deriving DecidableEq, Repr

def ManifestFault.message : ManifestFault → String
  | cannotWrite path error => s!"cannot write " ++ path.text ++ ": " ++ error.message
  | refused => "write refused"

/-- The cause of a failed operation. -/
inductive Failure where
  | wrongKind (expected actual : Kind)
  | unknownTrack (track : TrackId)
  | trackExists (track : TrackId)
  | notReady (lack : Lack)
  | notConfigured
  | bitstream (fault : BitstreamFault)
  | overflow (length capacity : Nat)
  | io (error : IoError)
  | event (mismatch : Mismatch)
  | violation (rule : Violation)
  | manifest (fault : ManifestFault)
  | stopped
  | settings (fault : SettingsFault)

namespace Failure

/-- The kinds of failure. -/
inductive Category where
  | wrongKind
  | unknownTrack
  | trackExists
  | notReady
  | notConfigured
  | bitstream
  | overflow
  | io
  | event
  | violation
  | manifest
  | stopped
  | settings
  deriving DecidableEq, Repr

/-- Whether a track goes on with its next frame after a failure of this kind. -/
def Category.isRecoverable : Category → Bool
  | notReady | wrongKind | io => true
  | _ => false

/-- The wording of a failure of this kind with the given detail. -/
def Category.describe (detail : String) : Category → String
  | wrongKind => "Wrong frame kind: " ++ detail
  | unknownTrack => "Unknown track: " ++ detail
  | trackExists => "Track already exists: " ++ detail
  | notReady => "Segmenter not ready: " ++ detail
  | notConfigured => "Segmenter used before its configuration was derived"
  | bitstream => "Invalid bitstream: " ++ detail
  | overflow => "Segment buffer overflow: " ++ detail
  | io => "IO error: " ++ detail
  | event => "Invalid event: " ++ detail
  | violation => "Invariant violation: " ++ detail
  | manifest => "Manifest error: " ++ detail
  | stopped => "Dasher service stopped"
  | settings => "Configuration error: " ++ detail

def category : Failure → Category
  | wrongKind .. => .wrongKind
  | unknownTrack _ => .unknownTrack
  | trackExists _ => .trackExists
  | notReady _ => .notReady
  | notConfigured => .notConfigured
  | bitstream _ => .bitstream
  | overflow .. => .overflow
  | io _ => .io
  | event _ => .event
  | violation _ => .violation
  | manifest _ => .manifest
  | stopped => .stopped
  | settings _ => .settings

/-- What a failure tells beyond its kind. -/
def detail : Failure → String
  | wrongKind expected actual => "expected " ++ expected.name ++ ", got " ++ actual.name
  | unknownTrack track => toString track
  | trackExists track => toString track
  | notReady lack => lack.message
  | notConfigured => ""
  | bitstream fault => fault.message
  | overflow length capacity => s!"{length} bytes exceeds capacity {capacity}"
  | io error => error.message
  | event mismatch => mismatch.message .compact
  | violation rule => rule.message
  | manifest fault => fault.message
  | stopped => ""
  | settings fault => fault.message

def isRecoverable (f : Failure) : Bool := f.category.isRecoverable

/-- The wording of a failure. -/
def message (f : Failure) : String := f.category.describe f.detail

end Failure
end Packager

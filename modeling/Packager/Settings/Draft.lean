import Packager.Data
import Packager.Settings
/-!
# Settings.Draft — sections of a settings document as far as they were read

The segment and the manifest section have the same fields in a complete settings document, where all are required, and
in a settings file, where most may be left out.  A draft holds what was read, and says what is missing in the order of
the fields.
-/
namespace Packager

/-- The fields of a segment section that were read. -/
structure SegmentDraft where
  seconds : Option Nat
  videoTimeBase : Option Nat
  audioTimeBase : Option Nat
  maxBytes : Option Nat
  tolerance : Option Nat

namespace SegmentDraft

def empty : SegmentDraft := ⟨none, none, none, none, none⟩

def fields : List String :=
  ["duration_secs", "video_time_base", "audio_time_base", "max_segment_bytes", "drift_tolerance_frames"]

/-- Reads one member. -/
def set (d : SegmentDraft) (name : String) (value : Data) : Except Mismatch SegmentDraft :=
  match name with
  | "duration_secs" => do return { d with seconds := some (← value.uint64) }
  | "video_time_base" => do return { d with videoTimeBase := some (← value.uint32) }
  | "audio_time_base" => do return { d with audioTimeBase := some (← value.uint32) }
  | "max_segment_bytes" => do return { d with maxBytes := some (← value.size) }
  | "drift_tolerance_frames" => do return { d with tolerance := some (← value.uint64) }
  | _ => .ok d

/-- The settings of a draft that has every field. -/
def complete (d : SegmentDraft) : Except Mismatch SegmentSettings := do
  let seconds ← Data.required "duration_secs" d.seconds
  let videoTimeBase ← Data.required "video_time_base" d.videoTimeBase
  let audioTimeBase ← Data.required "audio_time_base" d.audioTimeBase
  let maxBytes ← Data.required "max_segment_bytes" d.maxBytes
  let tolerance ← Data.required "drift_tolerance_frames" d.tolerance
  return { seconds, videoTimeBase, audioTimeBase, maxBytes, tolerance }

end SegmentDraft

/-- The fields of a manifest section that were read. -/
structure ManifestDraft where
  minBufferSeconds : Option Nat
  maxSegments : Option Nat

namespace ManifestDraft

def empty : ManifestDraft := ⟨none, none⟩

def fields : List String := ["min_buffer_time_secs", "max_segments_in_mpd"]

/-- Reads one member. -/
def set (d : ManifestDraft) (name : String) (value : Data) : Except Mismatch ManifestDraft :=
  match name with
  | "min_buffer_time_secs" => do return { d with minBufferSeconds := some (← value.uint64) }
  | "max_segments_in_mpd" => do return { d with maxSegments := some (← value.size) }
  | _ => .ok d

/-- The settings of a draft that has every field. -/
def complete (d : ManifestDraft) : Except Mismatch ManifestSettings := do
  let minBufferSeconds ← Data.required "min_buffer_time_secs" d.minBufferSeconds
  let maxSegments ← Data.required "max_segments_in_mpd" d.maxSegments
  return { minBufferSeconds, maxSegments }

end ManifestDraft
end Packager

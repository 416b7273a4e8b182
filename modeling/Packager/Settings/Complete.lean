import Packager.Settings.Draft
import Packager.Settings.Storage
/-!
# Settings.Complete — settings with nothing left out

A complete settings document has every field of `Settings`, in two sections and at the top.
-/
namespace Packager
namespace Settings

/-- The fields of a complete settings document that were read. -/
structure Draft where
  folder : Option Path
  baseName : Option String
  segment : Option SegmentSettings
  manifest : Option ManifestSettings
  logLevel : Option String
  logFormat : Option String

def Draft.empty : Draft := ⟨none, none, none, none, none, none⟩

def decodeSegment : Data → Except Mismatch SegmentSettings :=
  Data.decodeRecord "struct SegmentConfig" SegmentDraft.fields .empty SegmentDraft.set SegmentDraft.complete

def decodeManifest : Data → Except Mismatch ManifestSettings :=
  Data.decodeRecord "struct ManifestConfig" ManifestDraft.fields .empty ManifestDraft.set ManifestDraft.complete

/-- Reads one member. -/
def Draft.set (d : Draft) (name : String) (value : Data) : Except Mismatch Draft :=
  match name with
  | "folder" => do return { d with folder := some ⟨← value.pathText⟩ }
  | "base_name" => do return { d with baseName := some (← value.string) }
  | "segment" => do return { d with segment := some (← decodeSegment value) }
  | "manifest" => do return { d with manifest := some (← decodeManifest value) }
  | "log_level" => do return { d with logLevel := some (← value.string) }
  | "log_format" => do return { d with logFormat := some (← value.string) }
  | _ => .ok d

/-- The settings of a draft that has every field. -/
def Draft.complete (d : Draft) : Except Mismatch Settings := do
  let folder ← Data.required "folder" d.folder
  let baseName ← Data.required "base_name" d.baseName
  let segment ← Data.required "segment" d.segment
  let manifest ← Data.required "manifest" d.manifest
  let logLevel ← Data.required "log_level" d.logLevel
  let logFormat ← Data.required "log_format" d.logFormat
  return { folder, baseName, segment, manifest, logLevel, logFormat }

/-- Reads complete settings. -/
def decode : Data → Except Mismatch Settings :=
  Data.decodeRecord "struct DasherConfig"
    ["folder", "base_name", "segment", "manifest", "log_level", "log_format"] .empty Draft.set Draft.complete

/-- Complete settings as a sheet. -/
def sheet (s : Settings) : Toml.Sheet where
  entries :=
    [("folder", .text s.folder.text), ("base_name", .text s.baseName), ("log_level", .text s.logLevel),
      ("log_format", .text s.logFormat)]
  sections :=
    [⟨"segment",
      [("duration_secs", .int s.segment.seconds), ("video_time_base", .int s.segment.videoTimeBase),
        ("audio_time_base", .int s.segment.audioTimeBase), ("max_segment_bytes", .int s.segment.maxBytes),
        ("drift_tolerance_frames", .int s.segment.tolerance)]⟩,
      ⟨"manifest",
        [("min_buffer_time_secs", .int s.manifest.minBufferSeconds),
          ("max_segments_in_mpd", .int s.manifest.maxSegments)]⟩]

variable {m : Type → Type} [Monad m]

/-- Loads complete settings from a file. -/
def load (disk : Disk m) (path : Path) : m (Except LoadFailure Settings) := Toml.load decode disk path

/-- Saves complete settings to a file. -/
def save (disk : Disk m) (path : Path) (s : Settings) : m (Except SaveFailure Unit) := Toml.save disk path s.sheet

end Settings
end Packager

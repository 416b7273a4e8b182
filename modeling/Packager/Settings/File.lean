import Packager.Settings.Draft
import Packager.Settings.Storage
/-!
# Settings.File — settings as users write them

A settings file has to name the output; every other section, and most fields in them, may be left out and are then as in
`Settings.default`.
-/
namespace Packager

structure OutputSection where
  folder : Path
  baseName : String
  deriving DecidableEq, Repr

structure SegmentSection where
  seconds : Nat
  videoTimeBase : Option Nat
  audioTimeBase : Option Nat
  maxBytes : Option Nat
  tolerance : Option Nat
  deriving DecidableEq, Repr

structure ManifestSection where
  minBufferSeconds : Option Nat
  maxSegments : Option Nat
  deriving DecidableEq, Repr

structure LoggingSection where
  level : String
  format : Option String
  deriving DecidableEq, Repr

/-- A settings file. -/
structure SettingsFile where
  output : OutputSection
  segment : Option SegmentSection
  manifest : Option ManifestSection
  logging : Option LoggingSection
  deriving DecidableEq, Repr

namespace SettingsFile

/-- Reads the output section: both fields are required. -/
def decodeOutput : Data → Except Mismatch OutputSection :=
  Data.decodeRecord "struct OutputSettings" ["folder", "base_name"] ((none, none) : Option Path × Option String)
    (fun d name value => match name with
      | "folder" => do return (some ⟨← value.pathText⟩, d.2)
      | "base_name" => do return (d.1, some (← value.string))
      | _ => .ok d)
    (fun d => do
      let folder ← Data.required "folder" d.1
      let baseName ← Data.required "base_name" d.2
      return { folder, baseName })

/-- Reads the segment section: the duration is required. -/
def decodeSegment : Data → Except Mismatch SegmentSection :=
  Data.decodeRecord "struct SegmentSettings" SegmentDraft.fields .empty SegmentDraft.set fun d => do
    let seconds ← Data.required "duration_secs" d.seconds
    return ⟨seconds, d.videoTimeBase, d.audioTimeBase, d.maxBytes, d.tolerance⟩

/-- Reads the manifest section: nothing is required. -/
def decodeManifest : Data → Except Mismatch ManifestSection :=
  Data.decodeRecord "struct ManifestSettings" ManifestDraft.fields .empty ManifestDraft.set fun d =>
    .ok ⟨d.minBufferSeconds, d.maxSegments⟩

/-- Reads the logging section: the level is required. -/
def decodeLogging : Data → Except Mismatch LoggingSection :=
  Data.decodeRecord "struct LoggingSettings" ["level", "format"] ((none, none) : Option String × Option String)
    (fun d name value => match name with
      | "level" => do return (some (← value.string), d.2)
      | "format" => do return (d.1, some (← value.string))
      | _ => .ok d)
    (fun d => do
      let level ← Data.required "level" d.1
      return ⟨level, d.2⟩)

/-- The sections that were read. -/
structure Draft where
  output : Option OutputSection
  segment : Option SegmentSection
  manifest : Option ManifestSection
  logging : Option LoggingSection

def Draft.empty : Draft := ⟨none, none, none, none⟩

/-- Reads one section. -/
def Draft.set (d : Draft) (name : String) (value : Data) : Except Mismatch Draft :=
  match name with
  | "output" => do return { d with output := some (← decodeOutput value) }
  | "segment" => do return { d with segment := some (← decodeSegment value) }
  | "manifest" => do return { d with manifest := some (← decodeManifest value) }
  | "logging" => do return { d with logging := some (← decodeLogging value) }
  | _ => .ok d

/-- Reads a settings file. -/
def decode : Data → Except Mismatch SettingsFile :=
  Data.decodeRecord "struct ConfigFile" ["output", "segment", "manifest", "logging"] .empty Draft.set fun d => do
    let output ← Data.required "output" d.output
    return ⟨output, d.segment, d.manifest, d.logging⟩

/-- The settings that a file stands for. -/
def settings (f : SettingsFile) : Settings :=
  let base := Settings.default
  { folder := f.output.folder
    baseName := f.output.baseName
    segment := match f.segment with
      | none => base.segment
      | some s =>
        { seconds := s.seconds
          videoTimeBase := s.videoTimeBase.getD base.segment.videoTimeBase
          audioTimeBase := s.audioTimeBase.getD base.segment.audioTimeBase
          maxBytes := s.maxBytes.getD base.segment.maxBytes
          tolerance := s.tolerance.getD base.segment.tolerance }
    manifest := match f.manifest with
      | none => base.manifest
      | some m =>
        { minBufferSeconds := m.minBufferSeconds.getD base.manifest.minBufferSeconds
          maxSegments := m.maxSegments.getD base.manifest.maxSegments }
    logLevel := match f.logging with
      | none => base.logLevel
      | some l => l.level
    logFormat := (f.logging.bind (·.format)).getD base.logFormat }

/-- The file that spells out the default settings. -/
def default : SettingsFile :=
  let base := Settings.default
  { output := ⟨base.folder, base.baseName⟩
    segment := some ⟨base.segment.seconds, base.segment.videoTimeBase, base.segment.audioTimeBase,
      base.segment.maxBytes, base.segment.tolerance⟩
    manifest := some ⟨base.manifest.minBufferSeconds, base.manifest.maxSegments⟩
    logging := some ⟨base.logLevel, base.logFormat⟩ }

/-- An entry for a field that is there. -/
def entry {α : Type} (name : String) (scalar : α → Toml.Scalar) : Option α → List (String × Toml.Scalar)
  | some a => [(name, scalar a)]
  | none => []

/-- A settings file as a sheet, without what it leaves out. -/
def sheet (f : SettingsFile) : Toml.Sheet where
  entries := []
  sections :=
    ⟨"output", [("folder", .text f.output.folder.text), ("base_name", .text f.output.baseName)]⟩ ::
    f.segment.toList.map (fun s => ⟨"segment",
      ("duration_secs", .int s.seconds) :: entry "video_time_base" .int s.videoTimeBase ++
      entry "audio_time_base" .int s.audioTimeBase ++ entry "max_segment_bytes" .int s.maxBytes ++
      entry "drift_tolerance_frames" .int s.tolerance⟩) ++
    f.manifest.toList.map (fun m => ⟨"manifest",
      entry "min_buffer_time_secs" .int m.minBufferSeconds ++ entry "max_segments_in_mpd" .int m.maxSegments⟩) ++
    f.logging.toList.map (fun l => ⟨"logging", ("level", .text l.level) :: entry "format" .text l.format⟩)

variable {m : Type → Type} [Monad m]

/-- Loads a settings file. -/
def load (disk : Disk m) (path : Path) : m (Except LoadFailure SettingsFile) := Toml.load decode disk path

/-- Saves a settings file. -/
def save (disk : Disk m) (path : Path) (f : SettingsFile) : m (Except SaveFailure Unit) := Toml.save disk path f.sheet

end SettingsFile
end Packager

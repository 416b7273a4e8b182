import Packager.CommandLine.Arguments
import Packager.CommandLine.Feed
import Packager.CommandLine.LogFilter
import Packager.CommandLine.Report
import Packager.Publisher.Cycle
import Packager.Publisher.Live
import Packager.Settings.File
/-!
# CommandLine.Run — what the program does

A run writes a default settings file, or reads its settings and its streams, publishes them through a live publisher
frame by frame, and shuts that down.  It is written over any disk and clock; the first failure ends it.
-/
namespace Packager
namespace CommandLine

variable {m : Type → Type} [Monad m]

/-- Goes on with the result of an operation, or ends the run with its failure. -/
def orEnd {ε α : Type} (trouble : ε → Trouble) (operation : m (Except ε α)) : ExceptT Trouble m α :=
  ExceptT.mk ((·.mapError trouble) <$> operation)

/-- The settings of a run: those of the file, changed by the options. -/
def Arguments.override (a : Arguments) (s : Settings) : Settings :=
  { s with
    folder := a.folder.getD s.folder
    baseName := a.baseName.getD s.baseName
    segment := { s.segment with seconds := a.seconds.getD s.segment.seconds } }

/-- Loads the settings of a run. -/
def loadSettings (disk : Disk m) (a : Arguments) : ExceptT Trouble m Settings := do
  let base ← match a.settingsFile with
    | none => pure .default
    | some path => SettingsFile.settings <$> orEnd .ofLoad (SettingsFile.load disk path)
  return a.override base

/-- The frames of the audio stream, if there is one. -/
def loadAudio (disk : Disk m) (a : Arguments) : ExceptT Trouble m (List AudioFrame) := do
  match a.audio with
  | none => return []
  | some path =>
    let data ← orEnd .file (disk.readFile path)
    orEnd (fun fault => .publisher (.bitstream fault)) (pure (audioFrames data))

/-- The frames of the video stream, if there is one.  The inner answer is none when a time stamp is too large. -/
def loadVideo (disk : Disk m) (a : Arguments) : ExceptT Trouble m (Option (List VideoFrame)) := do
  match a.video with
  | none => return some []
  | some path =>
    let data ← orEnd .file (disk.readFile path)
    if a.frameRate.isPositive then return videoFrames data a.frameRate a.width a.height
    else throw (.frameRate a.frameRate)

/-- Adds the tracks that have frames, takes the frames one by one, and shuts the publisher down. -/
def publish (outlet : Outlet m) (audio : List AudioFrame) (video : List VideoFrame) (p : Publisher) :
    m (Except Failure Unit) := do
  let p ← if video.isEmpty then pure p else Prod.snd <$> p.addTrack outlet videoTrack .video
  let p ← if audio.isEmpty then pure p else Prod.snd <$> p.addTrack outlet audioTrack .audio
  let p ← (merge audio video).foldlM (fun p frame => Prod.snd <$> p.cycle outlet [frame]) p
  Prod.fst <$> p.shutdown outlet

/-- Checks the settings and publishes the streams of the command line. -/
def stream (disk : Disk m) (clock : m Instant) (a : Arguments) (settings : Settings) :
    ExceptT Trouble m Finish := do
  orEnd (fun fault => .publisher (.settings fault)) (pure settings.check)
  let audio ← loadAudio disk a
  match ← loadVideo disk a with
  | none => return .outOfTime
  | some video =>
    if audio.isEmpty && video.isEmpty then throw .nothingToDo
    let (publisher, mpd) ← orEnd .publisher (Publisher.createLive disk clock settings)
    orEnd .publisher (Prod.fst <$> (publish (.live disk clock) audio video publisher).run mpd)
    return .done none

/-- Writes a settings file with the default settings. -/
def writeDefault (disk : Disk m) (path : Path) : ExceptT Trouble m Finish := do
  orEnd .ofSave (SettingsFile.default.save disk path)
  return .done (some ("Default configuration written to " ++ path.text))

/-- The finish of a run that may be cut short. -/
def finish (act : ExceptT Trouble m Finish) : m Finish := do
  match ← act.run with
  | .ok finish => return finish
  | .error trouble => return .failed trouble

/-- Does what the arguments ask for.  The log level is looked at once the settings are loaded. -/
def run (disk : Disk m) (clock : m Instant) (a : Arguments) : m Ending := do
  match a.writeDefault with
  | some path => return ⟨[], ← finish (writeDefault disk path)⟩
  | none =>
    match ← (loadSettings disk a).run with
    | .error trouble => return ⟨[], .failed trouble⟩
    | .ok settings =>
      match LogFilter.warnings settings.logLevel with
      | none => return ⟨[], .cutLevel⟩
      | some warnings => return ⟨warnings, ← finish (stream disk clock a settings)⟩

end CommandLine
end Packager

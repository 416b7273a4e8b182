import Packager.Manifest.Mpd
import Packager.Publisher
/-!
# Publisher.Live — a publisher with its live manifest

The live manifest of a publisher lies beside its segments, under the base name, and says how long segments are.
-/
namespace Packager

/-- The empty manifest of a publisher that starts at an instant. -/
def Mpd.start (settings : Settings) (now : Instant) : Mpd where
  path := settings.manifestPath
  seconds := settings.segment.seconds
  minBufferSeconds := settings.manifest.minBufferSeconds
  maxSegments := settings.manifest.maxSegments
  availabilityStart := now
  sets := .empty

/-- A publisher without tracks, with its manifest. -/
def Publisher.createLive {m : Type → Type} [Monad m] (disk : Disk m) (clock : m Instant) (settings : Settings) :
    m (Except Failure (Publisher × Mpd)) := do
  let now ← clock
  match ← create disk settings with
  | .error failure => return .error failure
  | .ok publisher => return .ok (publisher, .start settings now)

end Packager

import Packager.Control.Event
import Packager.Gate
import Packager.Publisher.Channel
import Packager.SortedMap
/-!
# Publisher — the tracks of a live presentation

A publisher holds a channel for every track, the gate between their segments and the disk, and the instant that all
tracks count from.  The operations here add, change and remove tracks; what each does to the disk and to the manifest
goes through its `Outlet`.
-/
namespace Packager

/-- A live presentation in the making. -/
structure Publisher where
  settings : Settings
  channels : SortedMap TrackId Channel
  gate : Gate
  /-- The first time stamp of any track, which is tick zero of all of them. -/
  origin : Option Nanos

namespace Publisher

/-- A representation of a new track. -/
def representation (settings : Settings) (id : TrackId) (kind : Kind) : Representation where
  adaptationSet := Naming.adaptationSet kind
  id := toString id
  kind := kind
  codec := Naming.defaultCodec kind
  bitrate := 0
  timeBase := settings.timeBase kind
  segmentTemplate := Naming.segmentTemplate settings.baseName (Naming.fileExtension kind)
  headerTemplate := Naming.headerTemplate settings.baseName (Naming.fileExtension kind)

/-- The most bits per second that can be declared. -/
def highestBitrate : Nat := UInt32.size - 1

def setChannel (p : Publisher) (id : TrackId) (c : Channel) : Publisher :=
  { p with channels := p.channels.insert id c }

variable {m : Type → Type} [Monad m]

/-- A publisher without tracks; its folder is created. -/
def create (disk : Disk m) (settings : Settings) : m (Except Failure Publisher) := do
  match settings.check with
  | .error fault => return .error (.settings fault)
  | .ok () =>
    match ← disk.createFolders settings.folder with
    | .error e => return .error (.io e)
    | .ok () => return .ok ⟨settings, .empty, .empty, none⟩

/-- Registers a track. -/
def addTrack (outlet : Outlet m) (id : TrackId) (kind : Kind) (p : Publisher) :
    m (Except Failure Unit × Publisher) := do
  if p.channels.contains id then
    return (.error (.trackExists id), p)
  else
    let fresh := Channel.start p.settings id kind
    let channel := match p.origin with
      | some origin => fresh.setOrigin origin
      | none => fresh
    outlet.announce (.added (representation p.settings id kind))
    return (.ok (), { p.setChannel id channel with gate := p.gate.addTrack id kind })

/-- Publishes what a track still has and drops it.  A file that cannot be written, the manifest included, does not keep
the track. -/
def removeTrack (outlet : Outlet m) (id : TrackId) (p : Publisher) : m (Except Failure Unit × Publisher) := do
  match p.channels.find? id with
  | none => return (.error (.unknownTrack id), p)
  | some channel =>
    let _ ← channel.drain outlet p.settings id
    outlet.announce (.removed channel.adaptationSet (toString id))
    let _ ← outlet.writeManifest
    return (.ok (), { p with channels := p.channels.erase id, gate := p.gate.removeTrack id })

/-- Publishes everything that the audio tracks have; from now on audio does not wait for video.  The answer is how many
segments were written. -/
def drainAudio (outlet : Outlet m) (p : Publisher) : m (Except Failure Nat × Publisher) := do
  let audio := p.channels.entries.filter (·.2.kind = .audio)
  let (written, p) ← audio.foldlM drainOne (0, { p with gate := p.gate.forceAudioOnly })
  if written = 0 then
    return (.ok 0, p)
  else
    match ← outlet.writeManifest with
    | .error failure => return (.error failure, p)
    | .ok () => return (.ok written, p)
where
  /-- Drains one track and adds what was written to the count. -/
  drainOne (acc : Nat × Publisher) (entry : TrackId × Channel) : m (Nat × Publisher) := do
    let (count, channel) ← entry.2.drain outlet acc.2.settings entry.1
    return (acc.1 + count, acc.2.setChannel entry.1 channel)

/-- Sets the declared bitrate of a track, in thousand bits per second. -/
def setBitrate (outlet : Outlet m) (id : TrackId) (kilobits : Nat) (p : Publisher) :
    m (Except Failure Unit × Publisher) := do
  match p.channels.find? id with
  | none => return (.error (.unknownTrack id), p)
  | some channel =>
    let bitrate := min (kilobits * 1000) highestBitrate
    outlet.announce (.bitrate channel.adaptationSet (toString id) bitrate)
    return (.ok (), p.setChannel id { channel with segmenter := channel.segmenter.setBitrate bitrate })

/-- Why the output cannot be changed. -/
def checkConfigure (baseName : String) (seconds : Nat) (p : Publisher) : Except Failure Unit :=
  if !p.channels.isEmpty then .error (.violation (.reconfigureWithTracks p.channels.size))
  else
    match Settings.checkBaseName baseName with
    | .error fault => .error (.settings fault)
    | .ok () => if seconds = 0 then .error (.settings .segmentDuration) else .ok ()

/-- Changes where the output goes and how long segments are, and starts over.  That needs a publisher without tracks. -/
def configure (outlet : Outlet m) (folder : Path) (baseName : String) (seconds : Nat) (p : Publisher) :
    m (Except Failure Unit × Publisher) := do
  match p.checkConfigure baseName seconds with
  | .error failure => return (.error failure, p)
  | .ok () =>
    match ← outlet.disk.createFolders folder with
    | .error e => return (.error (.io e), p)
    | .ok () =>
      let settings := { p.settings with folder, baseName, segment := { p.settings.segment with seconds } }
      outlet.announce (.relocated settings.manifestPath seconds)
      return (.ok (), ⟨settings, p.channels, .empty, none⟩)

/-- Removes every track and writes the final manifest. -/
def shutdown (outlet : Outlet m) (p : Publisher) : m (Except Failure Unit × Publisher) := do
  let p ← p.channels.keys.foldlM (fun p id => Prod.snd <$> p.removeTrack outlet id) p
  return (← outlet.writeManifest, p)

/-- Carries out a control event. -/
def apply (outlet : Outlet m) (event : ControlEvent) (p : Publisher) : m (Except Failure Unit × Publisher) :=
  match event with
  | .configure folder baseName seconds => p.configure outlet folder baseName seconds
  | .addSegmenter track kind => p.addTrack outlet track kind
  | .removeSegmenter track => p.removeTrack outlet track
  | .setBitrate track kilobits => p.setBitrate outlet track kilobits

/-- Reads a control event, carries it out and answers it. -/
def handle (outlet : Outlet m) (event : Data) (p : Publisher) : m (Data × Publisher) := do
  match ControlEvent.parse event with
  | .error failure => return (controlReply (.error failure), p)
  | .ok event =>
    let (result, p) ← p.apply outlet event
    return (controlReply result, p)

end Publisher
end Packager

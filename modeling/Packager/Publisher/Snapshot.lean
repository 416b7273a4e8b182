import Packager.Publisher
/-!
# Publisher.Snapshot — the state of a publisher for the control plane

A snapshot is a map of the output's settings and of the tracks in the order of their numbers.
-/
namespace Packager

/-- The state of one track. -/
def Channel.snapshot (id : TrackId) (c : Channel) : Data :=
  .map
    [("id", .int id), ("kind", .text c.kind.name),
      ("state", .text c.segmenter.assembly.phase.name), ("bitrate", .int c.segmenter.assembly.bitrate),
      ("codec", .text c.segmenter.codec), ("timeBase", .int c.segmenter.assembly.clock.timeBase),
      ("frameDuration", .int c.segmenter.assembly.clock.frameTicks), ("holding", .bool c.isHolding)]

/-- The state of a publisher. -/
def Publisher.snapshot (p : Publisher) : Data :=
  .map
    [("folder", .text p.settings.folder.text), ("baseName", .text p.settings.baseName),
      ("mpdPath", .text p.settings.manifestPath.text), ("segDurInSec", .int p.settings.segment.seconds),
      ("videoStarted", .bool p.gate.videoStarted), ("audioOnly", .bool p.gate.audioOnly),
      ("tracks", .list (p.channels.entries.map fun e => e.2.snapshot e.1))]

end Packager

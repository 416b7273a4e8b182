import Packager.Manifest.Announcement
import Packager.Naming
import Packager.Settings
import Packager.Track.Segmenter
/-!
# Publisher.Channel — one track on its way to the disk

A channel is the segmenter of a track with the slot for its finished segment.  `feed` takes one frame through the
segmenter and writes the initialization segment as soon as there is one; `publish` writes the segment in the slot and
announces it.
-/
namespace Packager

/-- A track of a publisher. -/
structure Channel where
  segmenter : Segmenter
  /-- The finished segment that awaits publication. -/
  slot : Slot

/-- What a frame led to. -/
structure Fed where
  channel : Channel
  /-- The initialization segment that was written. -/
  header : Option Path
  failure : Option Failure

namespace Channel

/-- The channel of a new track. -/
def start (settings : Settings) (id : TrackId) (kind : Kind) : Channel :=
  ⟨.start kind (settings.plan id kind), .empty settings.segment.maxBytes⟩

def kind (c : Channel) : Kind := c.segmenter.kind

/-- The id of the adaptation set that the track is listed in. -/
def adaptationSet (c : Channel) : String := Naming.adaptationSet c.kind

/-- Whether a finished segment awaits publication. -/
def isHolding (c : Channel) : Bool := !c.slot.isEmpty

def setOrigin (c : Channel) (origin : Nanos) : Channel := { c with segmenter := (c.segmenter.setOrigin origin).2 }

/-- The file of the track's initialization segment. -/
def headerPath (settings : Settings) (id : TrackId) (c : Channel) : Path :=
  Naming.headerPath settings.folder settings.baseName id (Naming.fileExtension c.kind)

/-- The file of the segment in the slot. -/
def segmentPath (settings : Settings) (id : TrackId) (c : Channel) : Path :=
  Naming.segmentPath settings.folder settings.baseName id c.slot.timestamp (Naming.fileExtension c.kind)

/-- Appends the frame that waits to the open fragment. -/
def append (c : Channel) : Channel × Option Failure :=
  let out := c.segmenter.append c.slot
  (⟨out.state, out.slot⟩, match out.result with
    | .ok _ => none
    | .error failure => some failure)

/-- Closes what is buffered into the slot.  The answer is whether that left a segment there. -/
def finish (c : Channel) : Bool × Channel :=
  let out := c.segmenter.finish c.slot
  (out.result matches .ok true, ⟨out.state, out.slot⟩)

variable {m : Type → Type} [Monad m]

/-- Takes one frame.  A track that cannot be configured yet waits for more; an initialization segment that could not be
written is made again with the next frame. -/
def feed (outlet : Outlet m) (settings : Settings) (id : TrackId) (c : Channel) (frame : Frame) : m Fed :=
  match c.segmenter.manage frame with
  | .error failure => return ⟨c, none, some failure⟩
  | .ok (_, segmenter) =>
    match segmenter.configure with
    | .error _ => return ⟨{ c with segmenter }, none, none⟩
    | .ok segmenter =>
      let header := segmenter.describe (.empty settings.segment.maxBytes)
      let c := { c with segmenter := header.state }
      match header.result with
      | .error failure => return ⟨c, none, some failure⟩
      | .ok false =>
        let (c, failure) := c.append
        return ⟨c, none, failure⟩
      | .ok true => do
        let path := c.headerPath settings id
        match ← header.slot.writeTo outlet.disk path with
        | .error e => return ⟨{ c with segmenter := c.segmenter.flush }, none, some (.io e)⟩
        | .ok () =>
          outlet.announce (.codec c.adaptationSet (toString id) c.segmenter.codec)
          let (c, failure) := c.append
          return ⟨c, some path, failure⟩

/-- Writes the segment in the slot to its file and announces it.  The slot is free afterwards, written or not. -/
def publish (outlet : Outlet m) (settings : Settings) (id : TrackId) (c : Channel) :
    m (Except Failure Path × Channel) := do
  let path := c.segmentPath settings id
  let freed := { c with slot := c.slot.clear }
  match ← c.slot.writeTo outlet.disk path with
  | .error e => return (.error (.io e), freed)
  | .ok () =>
    outlet.announce (.segment c.adaptationSet (toString id) c.slot.timestamp c.slot.duration)
    return (.ok path, freed)

/-- Publishes the segment in the slot and then what is still buffered.  The answer is how many segments were written. -/
def drain (outlet : Outlet m) (settings : Settings) (id : TrackId) (c : Channel) : m (Nat × Channel) := do
  let (held, c) ← if c.isHolding then publishOne c else pure (0, c)
  let (finished, c) := c.finish
  let (trailing, c) ← if finished then publishOne c else pure (0, c)
  return (held + trailing, c)
where
  /-- Publishes one segment and counts it when it was written. -/
  publishOne (c : Channel) : m (Nat × Channel) := do
    let (result, c) ← c.publish outlet settings id
    return (if result.isOk then 1 else 0, c)

end Channel
end Packager

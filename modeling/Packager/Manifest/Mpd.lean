import Packager.Calendar
import Packager.Manifest.Announcement
import Packager.SortedMap
/-!
# Manifest.Mpd — a live media presentation description

An `Mpd` is what a live manifest says: adaptation sets by id, in each the representations by id, and for each of these
the time line of its latest segments.  Every announcement is one operation on it, `render` is its XML text, and `save`
puts that text in place of the old file by way of a temporary one.
-/
namespace Packager

/-- A representation and the time line of its segments, oldest first. -/
structure Listing where
  representation : Representation
  /-- Start and duration of the segments, in ticks. -/
  timeline : List (Nat × Nat)
  deriving DecidableEq, Repr

/-- A live manifest. -/
structure Mpd where
  path : Path
  /-- How long segments should be, in seconds. -/
  seconds : Nat
  minBufferSeconds : Nat
  /-- How many segments a time line keeps; zero keeps all. -/
  maxSegments : Nat
  availabilityStart : Instant
  sets : SortedMap String (SortedMap String Listing)

namespace Mpd

def listing? (m : Mpd) (set id : String) : Option Listing := (m.sets.find? set).bind (·.find? id)

/-- Lists a representation, with no segments yet, in place of one with the same ids. -/
def add (m : Mpd) (r : Representation) : Mpd :=
  let listings := (m.sets.find? r.adaptationSet).getD .empty
  { m with sets := m.sets.insert r.adaptationSet (listings.insert r.id ⟨r, []⟩) }

/-- Removes a representation, and its set when that is empty.  The answer is whether it was listed. -/
def remove (m : Mpd) (set id : String) : Bool × Mpd :=
  match m.sets.find? set with
  | none => (false, m)
  | some listings =>
    let rest := listings.erase id
    (listings.contains id,
      { m with sets := if rest.isEmpty then m.sets.erase set else m.sets.insert set rest })

/-- Changes a listing.  The answer is whether there is one. -/
def update (m : Mpd) (set id : String) (f : Listing → Listing) : Bool × Mpd :=
  ((m.listing? set id).isSome, { m with sets := m.sets.modify set (·.modify id f) })

def setBitrate (m : Mpd) (set id : String) (bitrate : Nat) : Bool × Mpd :=
  m.update set id fun l => { l with representation := { l.representation with bitrate } }

def setCodec (m : Mpd) (set id codec : String) : Bool × Mpd :=
  m.update set id fun l => { l with representation := { l.representation with codec } }

/-- The end of a time line that is kept. -/
def window (maxSegments : Nat) (timeline : List (Nat × Nat)) : List (Nat × Nat) :=
  if maxSegments = 0 then timeline else timeline.drop (timeline.length - maxSegments)

/-- Appends a segment to the time line of a representation, when it is listed. -/
def addSegment (m : Mpd) (set id : String) (timestamp duration : Nat) : Mpd :=
  (m.update set id fun l => { l with timeline := window m.maxSegments (l.timeline ++ [(timestamp, duration)]) }).2

def relocate (m : Mpd) (path : Path) (seconds : Nat) : Mpd := { m with path, seconds }

def apply (m : Mpd) : Announcement → Mpd
  | .added representation => m.add representation
  | .removed set id => (m.remove set id).2
  | .bitrate set id bitrate => (m.setBitrate set id bitrate).2
  | .codec set id codec => (m.setCodec set id codec).2
  | .segment set id timestamp duration => m.addSegment set id timestamp duration
  | .relocated path seconds => m.relocate path seconds

def timelineLength (m : Mpd) (set id : String) : Nat :=
  match m.listing? set id with
  | some listing => listing.timeline.length
  | none => 0

/-- An attribute with a space before it. -/
def attr (name value : String) : String := " " ++ name ++ "=\"" ++ value ++ "\""

/-- A span of seconds in ISO 8601 form. -/
def span (n : Nat) : String := s!"PT{n}S"

def renderSegment (segment : Nat × Nat) : String :=
  "            <S" ++ attr "t" (toString segment.1) ++ attr "d" (toString segment.2) ++ "/>\n"

def renderListing (l : Listing) : String :=
  let r := l.representation
  "      <Representation" ++ attr "id" r.id ++ attr "codecs" r.codec ++
    attr "bandwidth" (toString r.bitrate) ++ ">\n" ++
  "        <SegmentTemplate" ++ attr "timescale" (toString r.timeBase) ++
    attr "initialization" r.headerTemplate ++ attr "media" r.segmentTemplate ++ ">\n" ++
  "          <SegmentTimeline>\n" ++ String.join (l.timeline.map renderSegment) ++
  "          </SegmentTimeline>\n" ++
  "        </SegmentTemplate>\n" ++
  "      </Representation>\n"

/-- An adaptation set takes its kind from its first representation. -/
def renderSet (set : String × SortedMap String Listing) : String :=
  match set.2.values with
  | [] => ""
  | first :: rest =>
    let kind := first.representation.kind.name
    "    <AdaptationSet" ++ attr "id" set.1 ++ attr "contentType" kind ++
      attr "mimeType" (kind ++ "/mp4") ++ attr "segmentAlignment" "true" ++ attr "startWithSAP" "1" ++
      ">\n" ++ String.join ((first :: rest).map renderListing) ++ "    </AdaptationSet>\n"

/-- The XML text of the manifest, published at an instant. -/
def render (m : Mpd) (published : Instant) : String :=
  "<?xml" ++ attr "version" "1.0" ++ attr "encoding" "UTF-8" ++ "?>\n" ++
  "<MPD" ++ attr "xmlns" "urn:mpeg:dash:schema:mpd:2011" ++
    attr "profiles" "urn:mpeg:dash:profile:isoff-live:2011" ++ attr "type" "dynamic" ++
    attr "availabilityStartTime" m.availabilityStart.render ++
    attr "publishTime" published.render ++
    attr "minimumUpdatePeriod" (span m.seconds) ++
    attr "minBufferTime" (span m.minBufferSeconds) ++
    (if 0 < m.maxSegments then attr "timeShiftBufferDepth" (span (m.maxSegments * m.seconds)) else "") ++
    ">\n" ++
  "  <Period id=\"0\" start=\"PT0S\">\n" ++
  String.join (m.sets.entries.map renderSet) ++
  "  </Period>\n" ++
  "</MPD>\n"

/-- The file that the text is written to before it takes its place. -/
def temporaryPath (m : Mpd) : Path := m.path.withExtension "mpd.tmp"

/-- Puts a text in place of the manifest file, so that readers see the old text or the new one. -/
def replaceFile {μ : Type → Type} [Monad μ] (disk : Disk μ) (m : Mpd) (text : String) : μ (Except IoError Unit) := do
  let folder ← match m.path.parent? with
    | some folder => if folder.text.isEmpty then pure (.ok ()) else disk.createFolders folder
    | none => pure (.ok ())
  match folder with
  | .error e => return .error e
  | .ok () =>
    match ← disk.writeText m.temporaryPath text with
    | .error e => return .error e
    | .ok () => disk.rename m.temporaryPath m.path

/-- Writes the manifest as published at an instant. -/
def save {μ : Type → Type} [Monad μ] (disk : Disk μ) (now : Instant) (m : Mpd) : μ (Except Failure Unit) := do
  match ← m.replaceFile disk (m.render now) with
  | .ok () => return .ok ()
  | .error e => return .error (.manifest (.cannotWrite m.path e))

end Mpd

/-- The outlet of a live packager: announcements go to the manifest in the state, which is written at the time of
`clock`. -/
def Outlet.live {μ : Type → Type} [Monad μ] (disk : Disk μ) (clock : μ Instant) : Outlet (StateT Mpd μ) where
  disk := disk.lift StateT.lift
  announce news := modify (·.apply news)
  writeManifest := do
    let now ← StateT.lift clock
    StateT.lift ((← get).save disk now)

end Packager

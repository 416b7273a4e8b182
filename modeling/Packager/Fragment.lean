import Packager.Box
/-!
# Fragment — a run of samples as a media segment

A media segment holds the samples of one track from a decode time on: `styp` names the brands, `moof` lists duration,
size and flags of every sample, `mdat` holds their bytes.  The offset of the first sample byte, counted from `moof`, is
the size of `moof` and of the `mdat` header; it does not depend on the number written in its place.
-/
namespace Packager

/-- One sample of a fragment. -/
structure Sample where
  /-- Duration in ticks. -/
  duration : UInt32
  /-- Whether decoding can start here. -/
  isSync : Bool
  data : Bytes
  deriving DecidableEq, Repr

/-- A run of samples with what its `moof` box says about them. -/
structure Fragment where
  trackId : UInt32
  sequence : UInt32
  /-- Decode time of the first sample, in ticks. -/
  decodeTime : UInt64
  samples : List Sample
  deriving DecidableEq, Repr

namespace Sample

/-- The flag word of a sample: a sync sample depends on no other, any other is no sync point. -/
def flags (s : Sample) : UInt32 := if s.isSync then 0x02000000 else 0x01010000

/-- The entry of a sample in the track run. -/
def entry (s : Sample) : Bytes :=
  Bytes.uint32 s.duration ++ Bytes.bigEndian 4 s.data.length ++ Bytes.uint32 s.flags

end Sample

namespace Fragment

open Bytes

def segmentType : Box :=
  .leaf (.ofChars 's' 't' 'y' 'p')
    ((FourCC.ofChars 'm' 's' 'd' 'h').bytes ++ zeros 4 ++
      (FourCC.ofChars 'm' 's' 'd' 'h').bytes ++ (FourCC.ofChars 'd' 'a' 's' 'h').bytes)

/-- The track run: data offset, and duration, size and flags of each sample. -/
def trackRun (samples : List Sample) (dataOffset : Nat) : Box :=
  .full (.ofChars 't' 'r' 'u' 'n') 0 0x000701
    (bigEndian 4 samples.length ++ bigEndian 4 dataOffset ++ samples.flatMap Sample.entry)

/-- The movie fragment box with a given data offset. -/
def movieFragment (f : Fragment) (dataOffset : Nat) : Box :=
  .node (.ofChars 'm' 'o' 'o' 'f')
    [.full (.ofChars 'm' 'f' 'h' 'd') 0 0 (uint32 f.sequence),
     .node (.ofChars 't' 'r' 'a' 'f')
      [.full (.ofChars 't' 'f' 'h' 'd') 0 0x020000 (uint32 f.trackId),
       .full (.ofChars 't' 'f' 'd' 't') 1 0 (uint64 f.decodeTime),
       trackRun f.samples dataOffset]]

/-- The bytes of all samples, in order. -/
def payload (f : Fragment) : Bytes := f.samples.flatMap Sample.data

/-- The distance from the start of `moof` to the first sample byte. -/
def dataOffset (f : Fragment) : Nat := (f.movieFragment 0).size + 8

/-- The boxes of a media segment. -/
def boxes (f : Fragment) : List Box :=
  [segmentType, f.movieFragment f.dataOffset, .leaf (.ofChars 'm' 'd' 'a' 't') f.payload]

/-- The media segment of a fragment. -/
def encode (f : Fragment) : Bytes := Box.encodeAll f.boxes

end Fragment
end Packager

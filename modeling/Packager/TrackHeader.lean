import Packager.Box
/-!
# TrackHeader — the initialization segment of a track

An initialization segment describes one track to a player before any sample arrives: `ftyp` names the brands and `moov`
holds the tree of track boxes, with the codec configuration in the sample entry under `stsd`.  The bytes depend on the
description alone.
-/
namespace Packager

/-- The codec-specific part of a track description. -/
inductive SampleEntry where
  /-- AAC: the `mp4a` entry with its `esds` descriptor. -/
  | aac (channels : UInt16) (sampleRate : UInt32) (config : Bytes) (bitrate : UInt32)
  /-- H.264: the `avc1` entry with its `avcC` record. -/
  | avc (width height : UInt16) (sps pps : Bytes)
  deriving DecidableEq, Repr

/-- All that an initialization segment tells about a track. -/
structure TrackDescription where
  trackId : UInt32
  timescale : UInt32
  entry : SampleEntry
  deriving DecidableEq, Repr

namespace SampleEntry

def isAudio : SampleEntry → Bool
  | aac .. => true
  | avc .. => false

/-- Width and height of the picture; zero for sound. -/
def pictureSize : SampleEntry → UInt16 × UInt16
  | aac .. => (0, 0)
  | avc width height _ _ => (width, height)

end SampleEntry

namespace TrackHeader

open Bytes

/-- The transformation matrix that changes nothing, in 16.16 and 2.30 fixed point. -/
def unityMatrix : Bytes :=
  uint32 0x00010000 ++ zeros 12 ++ uint32 0x00010000 ++ zeros 12 ++ uint32 0x40000000

/-- The language code `und`, five bits to the letter. -/
def undetermined : UInt16 := 0x55C4

/-- The descriptors of an AAC stream, each with its tag and a one-byte length. -/
def elementaryStream (config : Bytes) (bitrate : UInt32) : Bytes :=
  let specific := uint8 0x05 ++ bigEndian 1 config.length ++ config
  let decoderBody := uint8 0x40 ++ uint8 0x15 ++ zeros 3 ++ uint32 bitrate ++ uint32 bitrate ++ specific
  let decoder := uint8 0x04 ++ bigEndian 1 decoderBody.length ++ decoderBody
  let syncLayer := uint8 0x06 ++ uint8 1 ++ uint8 0x02
  let streamBody := uint16 1 ++ uint8 0 ++ decoder ++ syncLayer
  uint8 0x03 ++ bigEndian 1 streamBody.length ++ streamBody

/-- The decoder configuration record of an H.264 stream with one set of each kind; profile, compatibility and level are
the bytes 1 to 3 of the sequence parameter set. -/
def avcRecord (sps pps : Bytes) : Bytes :=
  uint8 1 ++ uint8 (sps[1]?.getD 0) ++ uint8 (sps[2]?.getD 0) ++ uint8 (sps[3]?.getD 0) ++ uint8 0xFF ++
    uint8 0xE1 ++ bigEndian 2 sps.length ++ sps ++
    uint8 1 ++ bigEndian 2 pps.length ++ pps

/-- The sample entry box.  A sample rate is written in 16.16 fixed point, clamped to what fits. -/
def sampleEntry : SampleEntry → Box
  | .aac channels sampleRate config bitrate =>
    .leaf (.ofChars 'm' 'p' '4' 'a')
      (zeros 6 ++ uint16 1 ++ zeros 8 ++ uint16 channels ++ uint16 16 ++ zeros 4 ++
        bigEndian 4 (min sampleRate.toNat 0xFFFF * 65536) ++
        (Box.full (.ofChars 'e' 's' 'd' 's') 0 0 (elementaryStream config bitrate)).encode)
  | .avc width height sps pps =>
    .leaf (.ofChars 'a' 'v' 'c' '1')
      (zeros 6 ++ uint16 1 ++ zeros 16 ++ uint16 width ++ uint16 height ++ uint32 0x00480000 ++
        uint32 0x00480000 ++ zeros 4 ++ uint16 1 ++ zeros 32 ++ uint16 0x0018 ++ uint16 0xFFFF ++
        (Box.leaf (.ofChars 'a' 'v' 'c' 'C') (avcRecord sps pps)).encode)

/-- The brands: an H.264 file also names `avc1`. -/
def fileType (entry : SampleEntry) : Box :=
  let brands : List FourCC :=
    [.ofChars 'i' 's' 'o' '5', .ofChars 'i' 's' 'o' '6', .ofChars 'd' 'a' 's' 'h', .ofChars 'm' 'p' '4' '1'] ++
      (if entry.isAudio then [] else [.ofChars 'a' 'v' 'c' '1'])
  .leaf (.ofChars 'f' 't' 'y' 'p')
    ((FourCC.ofChars 'i' 's' 'o' '5').bytes ++ uint32 512 ++ brands.flatMap FourCC.bytes)

def movieHeader (timescale nextTrackId : UInt32) : Box :=
  .full (.ofChars 'm' 'v' 'h' 'd') 0 0
    (zeros 8 ++ uint32 timescale ++ zeros 4 ++ uint32 0x00010000 ++ uint16 0x0100 ++ zeros 10 ++ unityMatrix ++
      zeros 24 ++ uint32 nextTrackId)

def trackBox (track : TrackDescription) : Box :=
  let (width, height) := track.entry.pictureSize
  .full (.ofChars 't' 'k' 'h' 'd') 0 7
    (zeros 8 ++ uint32 track.trackId ++ zeros 4 ++ zeros 4 ++ zeros 8 ++ zeros 4 ++
      uint16 (if track.entry.isAudio then 0x0100 else 0) ++ zeros 2 ++ unityMatrix ++
      uint16 width ++ zeros 2 ++ uint16 height ++ zeros 2)

def mediaHeader (timescale : UInt32) : Box :=
  .full (.ofChars 'm' 'd' 'h' 'd') 0 0 (zeros 8 ++ uint32 timescale ++ zeros 4 ++ uint16 undetermined ++ zeros 2)

def handler (entry : SampleEntry) : Box :=
  let (type, name) :=
    if entry.isAudio then (FourCC.ofChars 's' 'o' 'u' 'n', "SoundHandler")
    else (FourCC.ofChars 'v' 'i' 'd' 'e', "VideoHandler")
  .full (.ofChars 'h' 'd' 'l' 'r') 0 0
    (zeros 4 ++ type.bytes ++ zeros 12 ++ name.toList.map Char.toUInt8 ++ zeros 1)

/-- The media header of the kind of track: balance for sound, graphics mode for pictures. -/
def kindHeader (entry : SampleEntry) : Box :=
  if entry.isAudio then .full (.ofChars 's' 'm' 'h' 'd') 0 0 (zeros 4)
  else .full (.ofChars 'v' 'm' 'h' 'd') 0 1 (zeros 8)

/-- The data reference: the samples are in the same file. -/
def dataReference : Box :=
  .full (.ofChars 'd' 'r' 'e' 'f') 0 0 (uint32 1 ++ (Box.full (.ofChars 'u' 'r' 'l' ' ') 0 1 []).encode)

/-- The sample table of a fragmented file: a description and no samples. -/
def sampleTable (entry : SampleEntry) : Box :=
  .node (.ofChars 's' 't' 'b' 'l')
    [.full (.ofChars 's' 't' 's' 'd') 0 0 (uint32 1 ++ (sampleEntry entry).encode),
     .full (.ofChars 's' 't' 't' 's') 0 0 (zeros 4),
     .full (.ofChars 's' 't' 's' 'c') 0 0 (zeros 4),
     .full (.ofChars 's' 't' 's' 'z') 0 0 (zeros 8),
     .full (.ofChars 's' 't' 'c' 'o') 0 0 (zeros 4)]

def trackExtends (trackId : UInt32) : Box :=
  .full (.ofChars 't' 'r' 'e' 'x') 0 0 (uint32 trackId ++ uint32 1 ++ zeros 12)

/-- The movie box of a track. -/
def movie (track : TrackDescription) : Box :=
  .node (.ofChars 'm' 'o' 'o' 'v')
    [movieHeader track.timescale (track.trackId + 1),
     .node (.ofChars 't' 'r' 'a' 'k')
      [trackBox track,
       .node (.ofChars 'm' 'd' 'i' 'a')
        [mediaHeader track.timescale,
         handler track.entry,
         .node (.ofChars 'm' 'i' 'n' 'f')
          [kindHeader track.entry,
           .node (.ofChars 'd' 'i' 'n' 'f') [dataReference],
           sampleTable track.entry]]],
     .node (.ofChars 'm' 'v' 'e' 'x') [trackExtends track.trackId]]

/-- The boxes of an initialization segment. -/
def boxes (track : TrackDescription) : List Box := [fileType track.entry, movie track]

end TrackHeader

/-- The initialization segment of a track. -/
def TrackDescription.encode (track : TrackDescription) : Bytes := Box.encodeAll (TrackHeader.boxes track)

end Packager

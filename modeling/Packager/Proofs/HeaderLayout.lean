import Packager.Proofs.BoxForest
import Packager.TrackHeader
/-!
# Proofs.HeaderLayout — an initialization segment decodes back to its track

`read?` is a reader of initialization segments that knows boxes, descriptors and fixed fields, and nothing of how a
segment was made.  It takes a sample entry only when that fills `stsd` to the last byte, and the stream descriptors only
when each fills the length of the one around it.  Of a written segment it finds the whole track again
(`header_reads_back`); only a sample rate that does not fit its 16 bits comes back clamped.
-/
namespace Packager

/-- The sample entry as its box can tell it: a sample rate has 16 bits. -/
def SampleEntry.clamped : SampleEntry → SampleEntry
  | aac channels sampleRate config bitrate => aac channels (min sampleRate 65535) config bitrate
  | avc width height sps pps => avc width height sps pps

def TrackDescription.clamped (t : TrackDescription) : TrackDescription := { t with entry := t.entry.clamped }

/-- Whether all that is counted in one or two bytes fits them. -/
def SampleEntry.Fits : SampleEntry → Prop
  | aac _ _ config _ => config.length ≤ 232
  | avc _ _ sps pps => sps.length ≤ 65535 ∧ pps.length ≤ 65535

/-- Whether the number of the track has a successor and its sample entry fits its lengths. -/
structure TrackDescription.Fits (t : TrackDescription) : Prop where
  id : t.trackId.toNat < 2 ^ 32 - 1
  entry : t.entry.Fits

namespace TrackHeader

open Bytes Box

def ftyp : FourCC := .ofChars 'f' 't' 'y' 'p'
def moov : FourCC := .ofChars 'm' 'o' 'o' 'v'
def mvhd : FourCC := .ofChars 'm' 'v' 'h' 'd'
def trak : FourCC := .ofChars 't' 'r' 'a' 'k'
def tkhd : FourCC := .ofChars 't' 'k' 'h' 'd'
def mdia : FourCC := .ofChars 'm' 'd' 'i' 'a'
def mdhd : FourCC := .ofChars 'm' 'd' 'h' 'd'
def hdlr : FourCC := .ofChars 'h' 'd' 'l' 'r'
def minf : FourCC := .ofChars 'm' 'i' 'n' 'f'
def smhd : FourCC := .ofChars 's' 'm' 'h' 'd'
def vmhd : FourCC := .ofChars 'v' 'm' 'h' 'd'
def dinf : FourCC := .ofChars 'd' 'i' 'n' 'f'
def dref : FourCC := .ofChars 'd' 'r' 'e' 'f'
def stbl : FourCC := .ofChars 's' 't' 'b' 'l'
def stsd : FourCC := .ofChars 's' 't' 's' 'd'
def stts : FourCC := .ofChars 's' 't' 't' 's'
def stsc : FourCC := .ofChars 's' 't' 's' 'c'
def stsz : FourCC := .ofChars 's' 't' 's' 'z'
def stco : FourCC := .ofChars 's' 't' 'c' 'o'
def mvex : FourCC := .ofChars 'm' 'v' 'e' 'x'
def trex : FourCC := .ofChars 't' 'r' 'e' 'x'
def mp4a : FourCC := .ofChars 'm' 'p' '4' 'a'
def esds : FourCC := .ofChars 'e' 's' 'd' 's'
def avc1 : FourCC := .ofChars 'a' 'v' 'c' '1'
def avcC : FourCC := .ofChars 'a' 'v' 'c' 'C'

/-- The boxes of an initialization segment, in the order in which a walk meets them. -/
def order (entry : SampleEntry) : List FourCC :=
  [ftyp, moov, mvhd, trak, tkhd, mdia, mdhd, hdlr, minf, if entry.isAudio then smhd else vmhd, dinf, dref, stbl, stsd,
    stts, stsc, stsz, stco, mvex, trex]

/-! ## The reader -/

/-- What was read, when nothing follows it. -/
def whole? {α : Type} : Option (α × Bytes) → Option α
  | some (a, []) => some a
  | _ => none

/-- The payload of the box of a type that fills the data. -/
def soleBox? (type : FourCC) (data : Bytes) : Option Bytes := do
  let found ← whole? (next? data)
  if found.type = type then some found.payload else none

/-- The body of a descriptor with a tag and a one-byte length, and what follows it. -/
def descriptor? (tag : UInt8) : Bytes → Option (Bytes × Bytes)
  | t :: n :: data => if t = tag ∧ n.toNat ≤ data.length then some (data.splitAt n.toNat) else none
  | _ => none

/-- A byte string under a two-byte length, and what follows it. -/
def parameterSet? (data : Bytes) : Option (Bytes × Bytes) := do
  let n ← readAt 2 0 data
  if n ≤ (data.drop 2).length then some ((data.drop 2).splitAt n) else none

/-- The codec configuration and the bitrate of an AAC stream. -/
def elementaryStream? (data : Bytes) : Option (Bytes × Nat) := do
  let stream ← whole? (descriptor? 3 data)
  let (decoder, behind) ← descriptor? 4 (stream.drop 3)
  let _ ← whole? (descriptor? 6 behind)
  let config ← whole? (descriptor? 5 (decoder.drop 13))
  let highest ← readUInt32 5 decoder
  let average ← readUInt32 9 decoder
  if highest = average then some (config, average) else none

/-- The sample entry in the payload of an `mp4a` box; the sample rate is in 16.16 fixed point. -/
def aac? (data : Bytes) : Option SampleEntry := do
  let channels ← readAt 2 16 data
  let rate ← readUInt32 24 data
  let stream ← soleBox? esds (data.drop 28)
  let (config, bitrate) ← elementaryStream? (stream.drop 4)
  return .aac (.ofNat channels) (.ofNat (rate / 65536)) config (.ofNat bitrate)

/-- The sample entry in the payload of an `avc1` box. -/
def avc? (data : Bytes) : Option SampleEntry := do
  let width ← readAt 2 24 data
  let height ← readAt 2 26 data
  let record ← soleBox? avcC (data.drop 78)
  let (sps, behind) ← parameterSet? (record.drop 6)
  let pps ← whole? (parameterSet? behind.tail)
  return .avc (.ofNat width) (.ofNat height) sps pps

/-- The one sample entry in the payload of `stsd`. -/
def sampleIn? (data : Bytes) : Option SampleEntry := do
  let count ← readUInt32 4 data
  let found ← whole? (next? (data.drop 8))
  if count ≠ 1 then none
  else if found.type = mp4a then aac? found.payload
  else if found.type = avc1 then avc? found.payload
  else none

/-- The track that an initialization segment describes.  The number of the track and its timescale are there twice, and
the number of a next track follows that of this one. -/
def read? (data : Bytes) : Option TrackDescription := do
  let timescale ← (find? containers mdhd data).bind (readUInt32 12)
  let timescale' ← (find? containers mvhd data).bind (readUInt32 12)
  let track ← (find? containers tkhd data).bind (readUInt32 12)
  let track' ← (find? containers trex data).bind (readUInt32 4)
  let next ← (find? containers mvhd data).bind (readUInt32 96)
  let entry ← (find? containers stsd data).bind sampleIn?
  if timescale = timescale' ∧ track = track' ∧ next = track + 1 then
    some ⟨.ofNat track, .ofNat timescale, entry⟩
  else none

/-! ## Reading what was written -/

section
variable {data rest : Bytes}

theorem soleBox?_encode (b : Box) (h : b.size < 2 ^ 32) : soleBox? b.type b.encode = some b.payload := by
  have hn := next?_encode b [] h
  rw [List.append_nil] at hn
  simp [soleBox?, hn, whole?]

/-- **A descriptor of at most 255 bytes is read back**, and what follows it is left. -/
theorem descriptor?_append (tag : UInt8) (body rest : Bytes) (h : body.length ≤ 255) :
    descriptor? tag (uint8 tag ++ bigEndian 1 body.length ++ body ++ rest) = some (body, rest) := by
  have hn : (UInt8.ofNat body.length).toNat = body.length := UInt8.toNat_ofNat_of_lt' (by change _ < 256; omega)
  simp [descriptor?, uint8, bigEndian, hn]

/-- **A parameter set of at most 65535 bytes is read back**, and what follows it is left. -/
theorem parameterSet?_append (body rest : Bytes) (h : body.length ≤ 65535) :
    parameterSet? (bigEndian 2 body.length ++ body ++ rest) = some (body, rest) := by
  have hread := readAt_field 2 0 [] (bigEndian 2 body.length) (body ++ rest) rfl (length_bigEndian 2 _)
  rw [List.nil_append, toNat_bigEndian (by omega)] at hread
  have hdrop : (bigEndian 2 body.length ++ (body ++ rest)).drop 2 = body ++ rest :=
    List.drop_left' (length_bigEndian 2 _)
  rw [List.append_assoc]
  simp [parameterSet?, hread, hdrop]

/-! ### The descriptors of an AAC stream -/

def specificInfo (config : Bytes) : Bytes := uint8 5 ++ bigEndian 1 config.length ++ config

def decoderBody (config : Bytes) (bitrate : UInt32) : Bytes :=
  uint8 0x40 ++ uint8 0x15 ++ zeros 3 ++ uint32 bitrate ++ uint32 bitrate ++ specificInfo config

def syncLayer : Bytes := uint8 6 ++ uint8 1 ++ uint8 2

def streamBody (config : Bytes) (bitrate : UInt32) : Bytes :=
  uint16 1 ++ uint8 0 ++ (uint8 4 ++ bigEndian 1 (decoderBody config bitrate).length ++ decoderBody config bitrate) ++
    syncLayer

theorem length_decoderBody (config : Bytes) (bitrate : UInt32) :
    (decoderBody config bitrate).length = 15 + config.length := by
  simp [decoderBody, specificInfo, uint8]
  omega

theorem length_streamBody (config : Bytes) (bitrate : UInt32) :
    (streamBody config bitrate).length = 23 + config.length := by
  simp [streamBody, syncLayer, uint8, length_decoderBody]
  omega

theorem length_elementaryStream (config : Bytes) (bitrate : UInt32) :
    (elementaryStream config bitrate).length = 25 + config.length := by
  show (uint8 3 ++ bigEndian 1 (streamBody config bitrate).length ++ streamBody config bitrate).length = _
  simp [uint8, length_streamBody]
  omega

theorem descriptor?_decoder {config : Bytes} (h : config.length ≤ 232) (bitrate : UInt32) :
    descriptor? 4 ((streamBody config bitrate).drop 3) = some (decoderBody config bitrate, syncLayer) := by
  have hdrop : (streamBody config bitrate).drop 3 =
      uint8 4 ++ bigEndian 1 (decoderBody config bitrate).length ++ decoderBody config bitrate ++ syncLayer := by
    rw [streamBody, List.append_assoc]
    exact List.drop_left' rfl
  have hl := length_decoderBody config bitrate
  rw [hdrop]
  exact descriptor?_append 4 _ syncLayer (by omega)

theorem descriptor?_specificInfo {config : Bytes} (h : config.length ≤ 232) (bitrate : UInt32) :
    descriptor? 5 ((decoderBody config bitrate).drop 13) = some (config, []) := by
  have hdrop : (decoderBody config bitrate).drop 13 = specificInfo config := List.drop_left' (by simp [uint8])
  have hd := descriptor?_append 5 config [] (by omega)
  rw [List.append_nil] at hd
  rw [hdrop]
  exact hd

theorem readUInt32_decoderBody (config : Bytes) (bitrate : UInt32) :
    readUInt32 5 (decoderBody config bitrate) = some bitrate.toNat ∧
      readUInt32 9 (decoderBody config bitrate) = some bitrate.toNat := by
  have hhighest := readUInt32_field 5 (uint8 0x40 ++ uint8 0x15 ++ zeros 3) bitrate
    (uint32 bitrate ++ specificInfo config) rfl
  have haverage := readUInt32_field 9 (uint8 0x40 ++ uint8 0x15 ++ zeros 3 ++ uint32 bitrate) bitrate
    (specificInfo config) (by simp [uint8])
  constructor
  · simpa only [decoderBody, List.append_assoc] using hhighest
  · simpa only [decoderBody, List.append_assoc] using haverage

/-- **The descriptors of a stream fill their lengths**, and tell its configuration and its bitrate. -/
theorem elementaryStream?_elementaryStream {config : Bytes} (h : config.length ≤ 232) (bitrate : UInt32) :
    elementaryStream? (elementaryStream config bitrate) = some (config, bitrate.toNat) := by
  have hstream : descriptor? 3 (elementaryStream config bitrate) = some (streamBody config bitrate, []) := by
    have hl := length_streamBody config bitrate
    have hd := descriptor?_append 3 (streamBody config bitrate) [] (by omega)
    rwa [List.append_nil] at hd
  have hsync : descriptor? 6 syncLayer = some ([2], []) := rfl
  obtain ⟨hhighest, haverage⟩ := readUInt32_decoderBody config bitrate
  simp [elementaryStream?, whole?, hstream, descriptor?_decoder h, hsync, descriptor?_specificInfo h, hhighest,
    haverage]

/-! ### The sample entries -/

theorem length_avcRecord (sps pps : Bytes) : (avcRecord sps pps).length = 11 + sps.length + pps.length := by
  simp [avcRecord, uint8]
  omega

theorem size_sampleEntry_lt {entry : SampleEntry} (h : entry.Fits) : (sampleEntry entry).size < 2 ^ 18 := by
  cases entry with
  | aac channels sampleRate config bitrate =>
    have hconfig : config.length ≤ 232 := h
    simp only [sampleEntry, Box.full, size, List.length_append, length_encode, length_zeros, length_uint16,
      length_bigEndian, length_elementaryStream]
    omega
  | avc width height sps pps =>
    obtain ⟨hs, hp⟩ : sps.length ≤ 65535 ∧ pps.length ≤ 65535 := h
    simp only [sampleEntry, size, List.length_append, length_encode, length_zeros, length_uint16, length_uint32,
      length_avcRecord]
    omega

theorem readUInt32_rate (before : Bytes) (rate : UInt32) (after : Bytes) (h : before.length = 24) :
    readUInt32 24 (before ++ (bigEndian 4 (min rate.toNat 65535 * 65536) ++ after)) =
      some (min rate.toNat 65535 * 65536) := by
  have hr := readAt_field 4 24 before (bigEndian 4 (min rate.toNat 65535 * 65536)) after h (length_bigEndian 4 _)
  rwa [toNat_bigEndian (by omega)] at hr

theorem ofNat_min (rate : UInt32) : UInt32.ofNat (min rate.toNat 65535) = min rate 65535 := by
  rw [← UInt32.ofNat_toNat (x := min rate 65535), UInt32.toNat_min]
  rfl

theorem aac?_payload (channels : UInt16) (sampleRate : UInt32) {config : Bytes} (h : config.length ≤ 232)
    (bitrate : UInt32) : aac? (sampleEntry (.aac channels sampleRate config bitrate)).payload =
      some (SampleEntry.aac channels sampleRate config bitrate).clamped := by
  generalize hd : (sampleEntry (.aac channels sampleRate config bitrate)).payload = data
  simp only [sampleEntry, Box.payload] at hd
  -- the fields stand at fixed offsets, the one box inside behind them
  have hchannels : readAt 2 16 data = some channels.toNat := by
    have hr := fun after =>
      readAt_field 2 16 (zeros 6 ++ uint16 1 ++ zeros 8) (uint16 channels) after rfl (length_uint16 channels)
    simp only [List.append_assoc, toNat_uint16] at hr
    simpa only [← hd, List.append_assoc] using hr _
  have hrate : readUInt32 24 data = some (min sampleRate.toNat 65535 * 65536) := by
    have hr := fun after => readUInt32_rate (zeros 6 ++ uint16 1 ++ zeros 8 ++ uint16 channels ++ uint16 16 ++ zeros 4)
      sampleRate after rfl
    simp only [List.append_assoc] at hr
    simpa only [← hd, List.append_assoc] using hr _
  have hstream : soleBox? esds (data.drop 28) = some (zeros 4 ++ elementaryStream config bitrate) := by
    have hsize : (Box.full esds 0 0 (elementaryStream config bitrate)).size < 2 ^ 32 := by
      simp only [Box.full, size, List.length_append, length_bigEndian, length_elementaryStream]
      omega
    rw [← hd, List.drop_left' (by simp)]
    exact soleBox?_encode _ hsize
  have hdescriptors := elementaryStream?_elementaryStream h bitrate
  simp [aac?, hchannels, hrate, hstream, hdescriptors, ofNat_min, SampleEntry.clamped]

theorem parameterSets?_avcRecord {sps pps : Bytes} (hs : sps.length ≤ 65535) (hp : pps.length ≤ 65535) :
    ∃ behind, parameterSet? ((avcRecord sps pps).drop 6) = some (sps, behind) ∧
      parameterSet? behind.tail = some (pps, []) := by
  refine ⟨uint8 1 ++ (bigEndian 2 pps.length ++ pps), ?_, ?_⟩
  · have hdrop : (avcRecord sps pps).drop 6 =
        bigEndian 2 sps.length ++ sps ++ (uint8 1 ++ (bigEndian 2 pps.length ++ pps)) := by
      simp only [avcRecord, uint8, List.append_assoc, List.cons_append, List.nil_append, List.drop_succ_cons,
        List.drop_zero]
    rw [hdrop]
    exact parameterSet?_append sps _ hs
  · have hr := parameterSet?_append pps [] hp
    rwa [List.append_nil] at hr

theorem avc?_payload (width height : UInt16) {sps pps : Bytes} (hs : sps.length ≤ 65535) (hp : pps.length ≤ 65535) :
    avc? (sampleEntry (.avc width height sps pps)).payload = some (.avc width height sps pps) := by
  generalize hd : (sampleEntry (.avc width height sps pps)).payload = data
  simp only [sampleEntry, Box.payload] at hd
  have hwidth : readAt 2 24 data = some width.toNat := by
    have hr := fun after =>
      readAt_field 2 24 (zeros 6 ++ uint16 1 ++ zeros 16) (uint16 width) after rfl (length_uint16 width)
    simp only [List.append_assoc, toNat_uint16] at hr
    simpa only [← hd, List.append_assoc] using hr _
  have hheight : readAt 2 26 data = some height.toNat := by
    have hr := fun after => readAt_field 2 26 (zeros 6 ++ uint16 1 ++ zeros 16 ++ uint16 width) (uint16 height) after rfl
      (length_uint16 height)
    simp only [List.append_assoc, toNat_uint16] at hr
    simpa only [← hd, List.append_assoc] using hr _
  have hrecord : soleBox? avcC (data.drop 78) = some (avcRecord sps pps) := by
    have hsize : (Box.leaf avcC (avcRecord sps pps)).size < 2 ^ 32 := by
      simp only [size, length_avcRecord]
      omega
    rw [← hd, List.drop_left' (by simp)]
    exact soleBox?_encode _ hsize
  obtain ⟨behind, hsps, hpps⟩ := parameterSets?_avcRecord hs hp
  simp [avc?, hwidth, hheight, hrecord, hsps, hpps, whole?]

/-- **The sample entry is read back**, with all that it nests. -/
theorem sampleIn?_append {entry : SampleEntry} (h : entry.Fits) :
    sampleIn? (zeros 4 ++ (uint32 1 ++ (sampleEntry entry).encode)) = some entry.clamped := by
  have hcount : readUInt32 4 (zeros 4 ++ (uint32 1 ++ (sampleEntry entry).encode)) = some 1 :=
    readUInt32_field 4 (zeros 4) 1 (sampleEntry entry).encode rfl
  have hdrop : (zeros 4 ++ (uint32 1 ++ (sampleEntry entry).encode)).drop 8 = (sampleEntry entry).encode := by
    rw [← List.append_assoc]
    exact List.drop_left' rfl
  have hfound := next?_encode (sampleEntry entry) [] ((size_sampleEntry_lt h).trans (by decide))
  rw [List.append_nil] at hfound
  cases entry with
  | aac channels sampleRate config bitrate =>
    have htype : (sampleEntry (.aac channels sampleRate config bitrate)).type = mp4a := rfl
    have hentry := aac?_payload channels sampleRate h bitrate
    simp [sampleIn?, hcount, hdrop, hfound, whole?, htype, hentry]
  | avc width height sps pps =>
    have htype : (sampleEntry (.avc width height sps pps)).type = avc1 := rfl
    have hne : avc1 ≠ mp4a := by decide
    have hentry := avc?_payload width height h.1 h.2
    simp [sampleIn?, hcount, hdrop, hfound, whole?, htype, hne, hentry, SampleEntry.clamped]

end

/-! ## The written boxes -/

section
variable {t : TrackDescription}

/-- Whether a box can be walked and is so small that a box can hold all of a track. -/
def Small (b : Box) : Prop := Sound containers b ∧ b.size < 2 ^ 19

theorem small_full {type : FourCC} {body : Bytes} (version flags : Nat) (ht : type ∉ containers)
    (hb : body.length ≤ 96) : Small (.full type version flags body) := by
  have hl : (bigEndian 1 version ++ bigEndian 3 flags ++ body).length ≤ 100 := by
    simp only [List.length_append, length_bigEndian]
    omega
  refine ⟨⟨ht, ?_⟩, ?_⟩
  · omega
  · simp only [Box.full, size]
    omega

theorem small_sampleTable {entry : SampleEntry} (h : entry.Fits) : Small (sampleTable entry) := by
  have hentry := size_sampleEntry_lt h
  refine ⟨⟨by decide, ?_, ⟨by decide, ?_⟩, ⟨by decide, by decide⟩, ⟨by decide, by decide⟩, ⟨by decide, by decide⟩,
    ⟨by decide, by decide⟩, trivial⟩, ?_⟩ <;>
  · simp only [sampleTable, Box.full, size, sizeAll, List.length_append, length_bigEndian, length_uint32, length_zeros,
      length_encode]
    omega

/-- **The boxes of an initialization segment can be walked**: the types of those with boxes inside are known, and every
size fits its four bytes. -/
theorem soundAll_boxes (h : t.entry.Fits) : SoundAll containers (boxes t) := by
  have htype : Sound containers (fileType t.entry) := by
    cases t.entry <;> exact ⟨by decide, Nat.le_of_ble_eq_true rfl⟩
  have hmovie : Small (movieHeader t.timescale (t.trackId + 1)) :=
    small_full 0 0 (by decide) (by simp [unityMatrix])
  have htrack : Small (trackBox t) := small_full 0 7 (by decide) (by simp [unityMatrix])
  have hmedia : Small (mediaHeader t.timescale) := small_full 0 0 (by decide) (by simp)
  have hhandler : Small (handler t.entry) := by
    cases t.entry <;> exact small_full 0 0 (by decide) (by decide)
  have hkind : Small (kindHeader t.entry) := by
    cases t.entry <;> exact small_full 0 _ (by decide) (by decide)
  have hreference : Small dataReference := small_full 0 0 (by decide) (by decide)
  have htable : Small (sampleTable t.entry) := small_sampleTable h
  have hextends : Small (trackExtends t.trackId) := small_full 0 0 (by decide) (by simp)
  unfold Small at *
  -- each size adds up few small ones, so it stays far below four bytes
  simp only [boxes, movie, SoundAll, Sound, size, sizeAll, htype, hmovie, htrack, hmedia, hhandler, hkind, hreference,
    htable, hextends, true_and, and_true]
  refine ⟨by decide, ?_, ⟨by decide, ?_, ⟨by decide, ?_, ⟨by decide, ?_, by decide, ?_⟩⟩⟩, by decide, ?_⟩ <;> omega

theorem walk_encode_header (h : t.entry.Fits) : walk containers t.encode = listingAll (boxes t) := by
  have hw := walk_encodeAll containers (boxes t) [] (soundAll_boxes h)
  rwa [List.append_nil, walk_nil, List.append_nil] at hw

theorem types_listing (t : TrackDescription) : (listingAll (boxes t)).map Found.type = order t.entry := by
  obtain ⟨trackId, timescale, entry⟩ := t
  cases entry <;> rfl

theorem find?_boxes (h : t.entry.Fits) :
    find? containers mvhd t.encode = some (movieHeader t.timescale (t.trackId + 1)).payload ∧
    find? containers tkhd t.encode = some (trackBox t).payload ∧
    find? containers mdhd t.encode = some (mediaHeader t.timescale).payload ∧
    find? containers stsd t.encode = some (zeros 4 ++ (uint32 1 ++ (sampleEntry t.entry).encode)) ∧
    find? containers trex t.encode = some (trackExtends t.trackId).payload := by
  have hsound := soundAll_boxes h
  obtain ⟨trackId, timescale, entry⟩ := t
  cases entry <;>
  exact ⟨find?_encodeAll hsound (f := ⟨mvhd, (movieHeader _ _).payload⟩) rfl,
    find?_encodeAll hsound (f := ⟨tkhd, (trackBox _).payload⟩) rfl,
    find?_encodeAll hsound (f := ⟨mdhd, (mediaHeader _).payload⟩) rfl,
    find?_encodeAll hsound (f := ⟨stsd, zeros 4 ++ (uint32 1 ++ (sampleEntry _).encode)⟩) rfl,
    find?_encodeAll hsound (f := ⟨trex, (trackExtends _).payload⟩) rfl⟩

theorem readUInt32_movieHeader (timescale next : UInt32) :
    readUInt32 12 (movieHeader timescale next).payload = some timescale.toNat ∧
      readUInt32 96 (movieHeader timescale next).payload = some next.toNat :=
  ⟨readUInt32_field 12 (zeros 12) timescale (zeros 4 ++ uint32 0x00010000 ++ uint16 0x0100 ++ zeros 10 ++ unityMatrix ++
      zeros 24 ++ uint32 next) rfl,
    readUInt32_field 96 (zeros 12 ++ uint32 timescale ++ zeros 4 ++ uint32 0x00010000 ++ uint16 0x0100 ++ zeros 10 ++
      unityMatrix ++ zeros 24) next [] rfl⟩

theorem readUInt32_trackBox (t : TrackDescription) : readUInt32 12 (trackBox t).payload = some t.trackId.toNat := by
  have hr := readUInt32_field 12 (bigEndian 1 0 ++ bigEndian 3 7 ++ zeros 8) t.trackId
    (zeros 4 ++ zeros 4 ++ zeros 8 ++ zeros 4 ++ uint16 (if t.entry.isAudio then 0x0100 else 0) ++ zeros 2 ++
      unityMatrix ++ uint16 t.entry.pictureSize.1 ++ zeros 2 ++ uint16 t.entry.pictureSize.2 ++ zeros 2) (by simp)
  simpa only [trackBox, Box.full, Box.payload, List.append_assoc] using hr

theorem readUInt32_mediaHeader (timescale : UInt32) :
    readUInt32 12 (mediaHeader timescale).payload = some timescale.toNat :=
  readUInt32_field 12 (zeros 12) timescale (zeros 4 ++ uint16 undetermined ++ zeros 2) rfl

theorem readUInt32_trackExtends (trackId : UInt32) : readUInt32 4 (trackExtends trackId).payload = some trackId.toNat :=
  readUInt32_field 4 (zeros 4) trackId (uint32 1 ++ zeros 12) rfl

end

/-- **An initialization segment decodes back to the track it was made of.**  A walk reads all of it and meets its boxes
in their order; the sample entry fills `stsd`, the descriptors fill `esds`, and what they tell is the track, with the
sample rate clamped. -/
theorem header_reads_back (t : TrackDescription) (h : t.Fits) :
    (walk containers t.encode).map Found.type = order t.entry ∧ ReadsAll containers t.encode ∧
      read? t.encode = some t.clamped := by
  refine ⟨?_, readsAll_encodeAll (soundAll_boxes h.entry), ?_⟩
  · rw [walk_encode_header h.entry]
    exact types_listing t
  · obtain ⟨hmvhd, htkhd, hmdhd, hstsd, htrex⟩ := find?_boxes h.entry
    obtain ⟨htimescale, hnext⟩ := readUInt32_movieHeader t.timescale (t.trackId + 1)
    have hsucc : (t.trackId + 1).toNat = t.trackId.toNat + 1 := by
      have hid := h.id
      rw [UInt32.toNat_add]
      exact Nat.mod_eq_of_lt (by change _ + 1 < _; omega)
    rw [hsucc] at hnext
    simp [read?, hmvhd, htkhd, hmdhd, hstsd, htrex, htimescale, hnext, readUInt32_trackBox, readUInt32_mediaHeader,
      readUInt32_trackExtends, sampleIn?_append h.entry, TrackDescription.clamped]

/-- A track of sound at a rate above 65535. -/
def fastTrack : TrackDescription := ⟨1, 96000, .aac 2 96000 [0x10, 0x10] 128000⟩

theorem fastTrack_reads_back : fastTrack.Fits ∧
    (walk containers fastTrack.encode).map Found.type = order fastTrack.entry ∧ ReadsAll containers fastTrack.encode ∧
    read? fastTrack.encode = some ⟨1, 96000, .aac 2 65535 [0x10, 0x10] 128000⟩ := by
  have h : fastTrack.Fits := ⟨by decide, Nat.le_of_ble_eq_true rfl⟩
  exact ⟨h, header_reads_back fastTrack h⟩

end TrackHeader
end Packager

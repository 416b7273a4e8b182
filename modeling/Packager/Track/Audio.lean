import Packager.Aac.AudioConfig
import Packager.Track.Assembly
/-!
# Track.Audio — cutting an AAC track

Audio samples are placed on the expected time line of the clock, one frame duration after the other, so jitter of the
time stamps never reaches the files.  A fragment is cut as soon as it is long enough.  When the clock jumps, the open
fragment is cut early; as long as the slot is held its last sample is stretched over the gap instead.
-/
namespace Packager

/-- What a segmenter knows about an AAC stream. -/
structure AudioStream where
  sampleRate : Nat
  channels : Nat
  /-- Samples per channel in a frame. -/
  samples : Nat
  /-- Time stamp of the last frame. -/
  lastPts : Nanos
  /-- The last ADTS header seen. -/
  header : Option Adts.Header
  /-- Whether the clock jumped and the open fragment still ends before the jump. -/
  resync : Bool
  deriving DecidableEq, Repr

namespace AudioStream

def start : AudioStream := ⟨0, 0, 0, 0, none, false⟩

/-- The access unit in a frame, without its ADTS header. -/
def payload (header : Option Adts.Header) (data : Bytes) : Bytes :=
  match header with
  | some h => (data.take h.frameLength).drop h.headerLength
  | none => data

/-- A parameter of a frame; zero leaves it to the header. -/
def orHeader (own : Nat) (ofHeader : Adts.Header → Nat) : Option Adts.Header → Nat
  | some h => if own = 0 then ofHeader h else own
  | none => own

/-- Takes a frame and puts it up for appending. -/
def manage (a : Assembly) (s : AudioStream) (f : AudioFrame) : Except Failure (Bool × Assembly × AudioStream) :=
  if f.data.isEmpty then .error (.bitstream .emptyAudioFrame)
  else
    match Adts.header? f.data with
    | .error fault => .error (.bitstream fault)
    | .ok header =>
      let (a, arrival) := a.accept f.pts
      let (isNew, b) := a.stage ⟨a.clock.expected, payload header f.data, true⟩
      .ok (isNew, b,
        { sampleRate := orHeader f.sampleRate Adts.Header.samplingRate header
          channels := orHeader f.channels Adts.Header.channelConfig header
          samples := f.samples
          lastPts := f.pts
          header := header <|> s.header
          resync := s.resync || arrival.drifted && !a.fragment.isEmpty })

/-- Derives the frame duration from the last frame. -/
def configure (a : Assembly) (s : AudioStream) : Except Lack Assembly :=
  if s.lastPts = 0 then .error .timestamp
  else if s.samples = 0 then .error .sampleCount
  else if s.sampleRate = 0 then .error .sampleRate
  else
    let frameTicks := s.samples * a.clock.timeBase / s.sampleRate
    if frameTicks = 0 then .error .frameOfOneTick else .ok (a.configure frameTicks)

/-- The decoder configuration: that of the last ADTS header, or AAC-LC at the parameters of the frames. -/
def config (s : AudioStream) : AudioConfig :=
  match s.header with
  | some h => .ofHeader h
  | none => ⟨AudioConfig.lowComplexity, s.sampleRate, s.channels⟩

/-- The track as the initialization segment describes it, and the codec configuration in it. -/
def description (a : Assembly) (s : AudioStream) : Bytes × TrackDescription :=
  let config := s.config.encode
  (config,
    { trackId := soleTrack
      timescale := .ofNat a.clock.timeBase
      entry := .aac (.ofNat s.channels) (.ofNat s.sampleRate) config (.ofNat a.bitrate) })

/-- Deals with a jump of the clock before a frame at tick `next` is appended: a free slot takes the fragment that ends
before the jump, a held one has it stretched up to the frame.  A jump back waits for the slot. -/
def resynchronize (a : Assembly) (s : AudioStream) (next : Nat) (slot : Slot) : Outcome (Assembly × AudioStream) :=
  if !s.resync || a.fragment.isEmpty then ⟨.ok false, (a, { s with resync := false }), slot⟩
  else if slot.isEmpty then
    let closed := a.close slot
    ⟨closed.result, (closed.state, { s with resync := false }), closed.slot⟩
  else
    match a.fragment.bridge? next with
    | some fragment => ⟨.ok false, ({ a with fragment }, { s with resync := false }), slot⟩
    | none => ⟨.ok false, (a, s), slot⟩

/-- Appends the waiting frame, and cuts the fragment that has become long enough when the slot is free. -/
def append (a : Assembly) (s : AudioStream) (slot : Slot) : Outcome (Assembly × AudioStream) :=
  match a.pending with
  | none => ⟨.ok false, (a, s), slot⟩
  | some p =>
    let cut := resynchronize { a with pending := none } s p.start slot
    let (a, s) := cut.state
    let a := a.push p
    match cut.result with
    | .ok false =>
      if a.isFull && cut.slot.isEmpty then
        let closed := a.close cut.slot
        ⟨closed.result, (closed.state, s), closed.slot⟩
      else ⟨.ok false, (a, s), cut.slot⟩
    | result => ⟨result, (a, s), cut.slot⟩

/-- Appends the waiting frame without cutting. -/
def absorb (a : Assembly) : Assembly :=
  match a.pending with
  | none => a
  | some p => { a with pending := none }.push p

/-- The codec string for the manifest. -/
def codec (s : AudioStream) : String := AudioConfig.codec s.config.objectType

end AudioStream
end Packager

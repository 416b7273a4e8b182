import Packager.Avc.NalUnit
import Packager.Track.Assembly
/-!
# Track.Video — cutting an H.264 track

Video samples are placed where their frames arrive.  A fragment opens with an IDR picture, so a fragment that is long
enough is cut at the next one.  A sample gets its real duration when the next frame arrives; frames that arrive before
the track is configured wait in the preroll.
-/
namespace Packager

/-- What a segmenter knows about an H.264 stream. -/
structure VideoStream where
  sps : Option NalUnit
  pps : Option NalUnit
  width : Nat
  height : Nat
  /-- Tick of the last frame. -/
  lastTicks : Option Nat
  /-- Tick of the frame before the last. -/
  previousTicks : Option Nat
  /-- The frames that arrived before the track was configured, oldest first. -/
  preroll : List Pending
  /-- Tick at which the last sample of the open fragment starts. -/
  lastStart : Nat
  deriving DecidableEq, Repr

namespace VideoStream

/-- How many frames the preroll keeps. -/
def maxPreroll : Nat := 256

/-- The codec string as long as no parameter set is known: Constrained Baseline, level 3.0. -/
def defaultCodec : String := "avc1.42c01e"

def start : VideoStream := ⟨none, none, 0, 0, none, none, [], 0⟩

/-- Whether a NAL unit belongs into a sample: parameter sets and delimiters do not. -/
def isCoded (nal : NalUnit) : Bool :=
  nal.type != NalUnit.spsType && nal.type != NalUnit.ppsType && nal.type != NalUnit.delimiterType

/-- NAL units behind their lengths, as a sample holds them. -/
def sampleData (nals : List NalUnit) : Bytes :=
  (nals.filter isCoded).flatMap fun nal => Bytes.bigEndian 4 nal.length ++ nal

/-- Whether decoding can start at these NAL units. -/
def isSync (nals : List NalUnit) : Bool := nals.any (·.type == NalUnit.idrType)

/-- The last NAL unit of a type. -/
def lastOfType (type : Nat) (nals : List NalUnit) : Option NalUnit := (nals.filter (·.type == type)).getLast?

/-- Moves the frame that still waits into the preroll, which drops its oldest frame when it is full. -/
def keepWaiting (a : Assembly) (v : VideoStream) : Assembly × VideoStream :=
  match a.pending with
  | some p =>
    if a.configured then (a, v)
    else ({ a with pending := none }, { v with preroll := v.preroll.drop (v.preroll.length + 1 - maxPreroll) ++ [p] })
  | none => (a, v)

/-- Takes a frame and puts it up for appending.  Parameter sets are kept; a frame with nothing else is passed over. -/
def manage (a : Assembly) (v : VideoStream) (f : VideoFrame) : Except Failure (Bool × Assembly × VideoStream) :=
  let nals := AnnexB.split f.data
  if nals.isEmpty then .error (.bitstream .noStartCode)
  else
    let v := { v with
      sps := lastOfType NalUnit.spsType nals <|> v.sps
      pps := lastOfType NalUnit.ppsType nals <|> v.pps }
    if !nals.any isCoded then .ok (false, a, v)
    else
      let (a, arrival) := a.accept f.pts
      let sized := 0 < f.width ∧ 0 < f.height
      let v := { v with
        width := if sized then f.width else v.width
        height := if sized then f.height else v.height
        previousTicks := v.lastTicks
        lastTicks := some arrival.ticks }
      let (a, v) := keepWaiting a v
      let (isNew, a) := a.stage ⟨arrival.ticks, sampleData nals, isSync nals⟩
      .ok (isNew, a, v)

/-- Derives the frame duration from the last two frames; frames that do not advance leave it as it was. -/
def configure (a : Assembly) (v : VideoStream) : Except Lack Assembly :=
  if v.sps.isNone then .error .sps
  else if v.pps.isNone then .error .pps
  else if v.width = 0 ∨ v.height = 0 then .error .pictureSize
  else
    match v.lastTicks, v.previousTicks with
    | some last, some previous =>
      let frameTicks := if previous < last then last - previous else a.clock.frameTicks
      if frameTicks = 0 then .error .advancingTimestamps else .ok (a.configure frameTicks)
    | _, _ => .error .secondFrame

/-- A picture dimension in 16 bits, clamped. -/
def dimension (n : Nat) : UInt16 := .ofNat (min n 65535)

/-- The track as the initialization segment describes it, and the codec configuration in it. -/
def description (a : Assembly) (v : VideoStream) : Except Lack (Bytes × TrackDescription) :=
  match v.sps, v.pps with
  | some sps, some pps =>
    .ok (Bytes.bigEndian 2 sps.length ++ sps ++ Bytes.bigEndian 2 pps.length ++ pps,
      { trackId := soleTrack
        timescale := .ofNat a.clock.timeBase
        entry := .avc (dimension v.width) (dimension v.height) sps pps })
  | _, _ => .error .parameterSets

/-- The duration of a sample at `start` whose successor is at `next`.  One that does not advance, or lies further off
than the clock tolerates, leaves the frame duration. -/
def sampleDuration (clock : Clock) (start next : Nat) : Nat :=
  let delta := next - start
  -- the product has no bound here, as in `Clock.accept`
  if delta = 0 ∨ clock.frameTicks * clock.tolerance < delta then clock.frameTicks else delta

/-- Gives the last sample the duration up to a frame at tick `next`. -/
def closeLast (a : Assembly) (v : VideoStream) (next : Nat) : Assembly :=
  { a with fragment := a.fragment.setLast (sampleDuration a.clock v.lastStart next) }

/-- Appends a frame; one that would open a fragment without being an IDR picture is dropped. -/
def absorbFrame (a : Assembly) (v : VideoStream) (p : Pending) : Assembly × VideoStream :=
  if a.fragment.isEmpty && !p.isSync then (a, v)
  else ((closeLast a v p.start).push p, { v with lastStart := p.start })

/-- Appends a frame.  Before an IDR picture a fragment that is long enough is cut, if the slot is free. -/
def appendFrame (a : Assembly) (v : VideoStream) (p : Pending) (slot : Slot) : Outcome (Assembly × VideoStream) :=
  if a.fragment.isEmpty && !p.isSync then ⟨.ok false, (a, v), slot⟩
  else
    let a := closeLast a v p.start
    let v := { v with lastStart := p.start }
    if p.isSync && a.isFull && slot.isEmpty then
      let closed := a.close slot
      ⟨closed.result, (closed.state.push p, v), closed.slot⟩
    else ⟨.ok false, (a.push p, v), slot⟩

/-- The result of two steps, the second of which ran whatever came of the first: the later failure counts. -/
def joinResults : Except Failure Bool → Except Failure Bool → Except Failure Bool
  | _, .error e => .error e
  | .error e, .ok _ => .error e
  | .ok x, .ok y => .ok (x || y)

/-- Appends frames in order. -/
def appendAll (queue : List Pending) (before : Outcome (Assembly × VideoStream)) : Outcome (Assembly × VideoStream) :=
  queue.foldl (fun acc p =>
    let step := appendFrame acc.state.1 acc.state.2 p acc.slot
    { step with result := joinResults acc.result step.result }) before

/-- The frames that wait to be appended, oldest first. -/
def queue (a : Assembly) (v : VideoStream) : List Pending := v.preroll ++ a.pending.toList

/-- Appends all waiting frames. -/
def append (a : Assembly) (v : VideoStream) (slot : Slot) : Outcome (Assembly × VideoStream) :=
  appendAll (queue a v) ⟨.ok false, ({ a with pending := none }, { v with preroll := [] }), slot⟩

/-- Appends all waiting frames without cutting. -/
def absorb (a : Assembly) (v : VideoStream) : Assembly × VideoStream :=
  (queue a v).foldl (fun (a, v) p => absorbFrame a v p) ({ a with pending := none }, { v with preroll := [] })

/-- A byte as two lower-case hexadecimal digits. -/
def hexByte (b : UInt8) : List Char := [Nat.digitChar (b.toNat / 16), Nat.digitChar (b.toNat % 16)]

/-- The codec string for the manifest, from profile, compatibility and level in the sequence parameter set. -/
def codec (v : VideoStream) : String :=
  match v.sps with
  | some (_ :: profile :: compatibility :: level :: _) =>
    "avc1." ++ String.ofList (hexByte profile ++ hexByte compatibility ++ hexByte level)
  | _ => defaultCodec

end VideoStream
end Packager

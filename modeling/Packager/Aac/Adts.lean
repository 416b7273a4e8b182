import Packager.Bytes
/-!
# Aac.Adts — frames with an ADTS header

An ADTS frame opens with seven bytes, nine when a checksum follows, that name the AAC profile, the sampling rate by its
index, the channel configuration and the length of the whole frame.  `Adts.header?` reads them, and `Adts.split` cuts a
stream into its complete frames.
-/
namespace Packager

/-- What is wrong with an elementary stream. -/
inductive BitstreamFault where
  | truncatedHeader (length : Nat)
  | truncatedChecksum
  | reservedSamplingIndex (index : Nat)
  | frameShorterThanHeader (length : Nat)
  | missingSyncword (offset : Nat)
  | emptyAudioFrame
  | noStartCode
  deriving DecidableEq, Repr

def BitstreamFault.message : BitstreamFault → String
  | truncatedHeader length => s!"truncated ADTS header ({length} bytes)"
  | truncatedChecksum => "truncated ADTS header with CRC"
  | reservedSamplingIndex index => s!"reserved ADTS sampling index {index}"
  | frameShorterThanHeader length => s!"ADTS frame length {length} shorter than header"
  | missingSyncword offset => s!"missing ADTS syncword at offset {offset}"
  | emptyAudioFrame => "empty audio frame"
  | noStartCode => "no Annex-B start code in video frame"

/-- The sampling rates by index. -/
def samplingRates : List Nat :=
  [96000, 88200, 64000, 48000, 44100, 32000, 24000, 22050, 16000, 12000, 11025, 8000, 7350]

namespace Adts

/-- The fields of an ADTS header that a decoder configuration needs. -/
structure Header where
  objectType : Nat
  samplingIndex : Nat
  channelConfig : Nat
  headerLength : Nat
  /-- Length of the frame, header included. -/
  frameLength : Nat
  deriving DecidableEq, Repr

def Header.samplingRate (h : Header) : Nat := samplingRates.getD h.samplingIndex 0

/-- Whether the twelve bits of the syncword open the data. -/
def hasSyncword : Bytes → Bool
  | b0 :: b1 :: _ => b0 == 0xFF && b1.toNat / 16 == 15
  | _ => false

/-- The fields in the first seven bytes of a header, wherever they may lead. -/
def fields (b1 b2 b3 b4 b5 : Nat) : Header where
  objectType := b2 / 64 + 1
  samplingIndex := b2 / 4 % 16
  channelConfig := b2 % 2 * 4 + b3 / 64
  headerLength := if b1 % 2 = 1 then 7 else 9
  frameLength := b3 % 4 * 2048 + b4 * 8 + b5 / 32

/-- Reads the header that opens `data`; none when there is no syncword, which is raw AAC. -/
def header? (data : Bytes) : Except BitstreamFault (Option Header) :=
  if !hasSyncword data then .ok none
  else
    match data with
    | _ :: b1 :: b2 :: b3 :: b4 :: b5 :: _ :: rest =>
      let h := fields b1.toNat b2.toNat b3.toNat b4.toNat b5.toNat
      if h.headerLength = 9 ∧ (rest.take 2).length < 2 then .error .truncatedChecksum
      else if samplingRates.length ≤ h.samplingIndex then .error (.reservedSamplingIndex h.samplingIndex)
      else if h.frameLength < h.headerLength then .error (.frameShorterThanHeader h.frameLength)
      else .ok (some h)
    | _ => .error (.truncatedHeader data.length)

theorem headerLength_le_frameLength {data : Bytes} {h : Header} (hd : header? data = .ok (some h)) :
    h.headerLength ≤ h.frameLength := by
  unfold header? at hd
  split at hd
  · cases hd
  · split at hd
    · simp only at hd
      split at hd
      · cases hd
      · split at hd
        · cases hd
        · split at hd
          · cases hd
          · injection hd with hd
            injection hd with hd
            subst hd
            omega
    · cases hd

theorem seven_le_headerLength {data : Bytes} {h : Header} (hd : header? data = .ok (some h)) :
    7 ≤ h.headerLength := by
  unfold header? at hd
  split at hd
  · cases hd
  · split at hd
    · simp only at hd
      split at hd
      · cases hd
      · split at hd
        · cases hd
        · split at hd
          · cases hd
          · injection hd with hd
            injection hd with hd
            subst hd
            simp only [fields]
            split <;> omega
    · cases hd

/-- Cuts `data`, which starts at `offset` of the stream, into frames.  A frame that runs past the end is dropped. -/
def splitFrom (offset : Nat) (data : Bytes) : Except BitstreamFault (List Bytes) :=
  if data.isEmpty then .ok []
  else
    match hd : header? data with
    | .error fault => .error fault
    | .ok none => .error (.missingSyncword offset)
    | .ok (some h) =>
      if hlen : (data.take h.frameLength).length < h.frameLength then .ok []
      else
        have : data.length - h.frameLength < data.length := by
          have h1 := headerLength_le_frameLength hd
          have h2 := seven_le_headerLength hd
          simp only [List.length_take] at hlen
          omega
        match splitFrom (offset + h.frameLength) (data.drop h.frameLength) with
        | .error fault => .error fault
        | .ok frames => .ok (data.take h.frameLength :: frames)
termination_by data.length

/-- The complete frames of an ADTS stream. -/
def split (data : Bytes) : Except BitstreamFault (List Bytes) := splitFrom 0 data

end Adts
end Packager

import Packager.Aac.Adts
/-!
# Aac.AudioConfig — the decoder configuration of an AAC track

Two bytes hold the object type, the index of the sampling rate and the channel configuration.  A rate that has no index
is written out in 24 bits after the escape index 15, which makes five bytes.
-/
namespace Packager

/-- The parameters of an AAC decoder. -/
structure AudioConfig where
  objectType : Nat
  samplingRate : Nat
  channels : Nat
  deriving DecidableEq, Repr

namespace AudioConfig

/-- The object type of AAC-LC. -/
def lowComplexity : Nat := 2

/-- The configuration that an ADTS header announces. -/
def ofHeader (h : Adts.Header) : AudioConfig := ⟨h.objectType, h.samplingRate, h.channelConfig⟩

/-- The written form.  Five bits hold the object type, and more than seven channels count as seven. -/
def encode (c : AudioConfig) : Bytes :=
  let objectType := c.objectType % 32
  let channels := min c.channels 7
  match samplingRates.idxOf? c.samplingRate with
  | some index => Bytes.bigEndian 2 (objectType <<< 11 + index <<< 7 + channels <<< 3)
  | none =>
    Bytes.bigEndian 5
      (objectType <<< 35 + 15 <<< 31 + (c.samplingRate % 1 <<< 24) <<< 7 + channels <<< 3)

/-- The codec string of an AAC track by RFC 6381. -/
def codec (objectType : Nat) : String := s!"mp4a.40.{objectType}"

end AudioConfig
end Packager

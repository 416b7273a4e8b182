import Packager.Proofs.AdtsFrames
import Packager.Proofs.BitFields
/-!
# Proofs.DecoderConfig — a decoder configuration reads back

The configuration of an AAC decoder is read bit by bit (`AudioConfig.decode?`): an object type, a sampling rate by its index
or written out, and a channel configuration.  `config_reads_back` says that every configuration comes back as it was, with
more than seven channels as seven, and that the one which an ADTS header announces comes back as the header's own bits.
-/
namespace Packager

/-- The sampling rates of MPEG-4 by index. -/
def standardRate? : Nat → Option Nat
  | 0 => some 96000
  | 1 => some 88200
  | 2 => some 64000
  | 3 => some 48000
  | 4 => some 44100
  | 5 => some 32000
  | 6 => some 24000
  | 7 => some 22050
  | 8 => some 16000
  | 9 => some 12000
  | 10 => some 11025
  | 11 => some 8000
  | 12 => some 7350
  | _ => none

theorem samplingRates_getElem? (index : Nat) : samplingRates[index]? = standardRate? index := by
  by_cases h : index < 13
  · revert index
    decide
  · rw [List.getElem?_eq_none (by simpa [samplingRates] using h), standardRate?] <;> omega

theorem le_of_standardRate? {index rate : Nat} (h : standardRate? index = some rate) : rate ≤ 96000 := by
  unfold standardRate? at h
  split at h <;> cases h <;> decide

namespace AudioConfig

open Bits

/-- Reads the sampling rate: by its index, or in 24 bits behind the index 15. -/
def readRate? (bits : List Bool) : Option (Nat × List Bool) := do
  let (index, bits) ← read? 4 bits
  if index = 15 then read? 24 bits else (standardRate? index).map (·, bits)

/-- Reads a decoder configuration off some bits, and leaves those behind it. -/
def decode? (bits : List Bool) : Option (AudioConfig × List Bool) := do
  let (objectType, bits) ← read? 5 bits
  let (samplingRate, bits) ← readRate? bits
  let (channels, bits) ← read? 4 bits
  return (⟨objectType, samplingRate, channels⟩, bits)

/-! ## Writing, bit by bit -/

theorem channels_lt (channels : Nat) : min channels 7 <<< 3 + 0 < 2 ^ 7 := by
  rw [Nat.shiftLeft_eq]
  omega

theorem bits_encode_of_index {c : AudioConfig} {index : Nat} (h : samplingRates.idxOf? c.samplingRate = some index)
    (hi : index < 16) :
    Bytes.bits c.encode = write 5 c.objectType ++ (write 4 index ++ (write 4 (min c.channels 7) ++ write 3 0)) := by
  have hchannels := channels_lt c.channels
  have hindex : index <<< 7 + (min c.channels 7 <<< 3 + 0) < 2 ^ 11 := by
    rw [Nat.shiftLeft_eq]
    omega
  have hencode : c.encode = Bytes.bigEndian 2
      ((c.objectType % 2 ^ 5) <<< 11 + (index <<< 7 + (min c.channels 7 <<< 3 + 0))) := by
    rw [encode, h, Nat.add_zero, ← Nat.add_assoc]
    rfl
  rw [hencode, Bytes.bits_bigEndian, write_add 5 11 _ hindex, write_add 4 7 _ hchannels, write_add 4 3 _ (by decide),
    write_mod]

theorem bits_encode_of_none {c : AudioConfig} (h : samplingRates.idxOf? c.samplingRate = none) :
    Bytes.bits c.encode = write 5 c.objectType ++
      (write 4 15 ++ (write 24 c.samplingRate ++ (write 4 (min c.channels 7) ++ write 3 0))) := by
  have hchannels := channels_lt c.channels
  have hrate : (c.samplingRate % 2 ^ 24) <<< 7 + (min c.channels 7 <<< 3 + 0) < 2 ^ 31 := by
    rw [Nat.shiftLeft_eq]
    omega
  have hescape : 15 <<< 31 + ((c.samplingRate % 2 ^ 24) <<< 7 + (min c.channels 7 <<< 3 + 0)) < 2 ^ 35 := by
    rw [Nat.shiftLeft_eq]
    omega
  have hencode : c.encode = Bytes.bigEndian 5 ((c.objectType % 2 ^ 5) <<< 35 +
      (15 <<< 31 + ((c.samplingRate % 2 ^ 24) <<< 7 + (min c.channels 7 <<< 3 + 0)))) := by
    rw [encode, h, Nat.add_zero, ← Nat.add_assoc, ← Nat.add_assoc]
    rfl
  rw [hencode, Bytes.bits_bigEndian, write_add 5 35 _ hescape, write_add 4 31 _ hrate, write_add 24 7 _ hchannels,
    write_add 4 3 _ (by decide), write_mod, write_mod]

/-! ## Reading back -/

theorem standardRate?_of_idxOf? {rate index : Nat} (h : samplingRates.idxOf? rate = some index) :
    standardRate? index = some rate := by
  obtain ⟨hi, hrate, -⟩ := List.idxOf?_eq_some_iff.1 h
  rw [← samplingRates_getElem?, List.getElem?_eq_getElem hi, hrate]

theorem lt_of_standardRate? {rate index : Nat} (h : standardRate? index = some rate) : index < 13 := by
  rw [← samplingRates_getElem?] at h
  exact (List.getElem?_eq_some_iff.1 h).1

theorem readRate?_index {rate index : Nat} (h : standardRate? index = some rate) (rest : List Bool) :
    readRate? (write 4 index ++ rest) = some (rate, rest) := by
  have hi := lt_of_standardRate? h
  rw [readRate?, read?_write_of_lt (by omega)]
  simp only [Option.bind_eq_bind, Option.bind_some]
  rw [if_neg (by omega), h]
  rfl

theorem readRate?_escape {rate : Nat} (h : rate < 2 ^ 24) (rest : List Bool) :
    readRate? (write 4 15 ++ (write 24 rate ++ rest)) = some (rate, rest) := by
  rw [readRate?, read?_write_of_lt (by decide)]
  simp only [Option.bind_eq_bind, Option.bind_some, if_true, read?_write_of_lt h]

/-- The rate is written so that it can be read, less what has no room in 24 bits. -/
theorem exists_rateBits (c : AudioConfig) : ∃ rateBits rate,
    Bytes.bits c.encode = write 5 c.objectType ++ (rateBits ++ (write 4 (min c.channels 7) ++ write 3 0)) ∧
      (∀ rest, readRate? (rateBits ++ rest) = some (rate, rest)) ∧ (c.samplingRate < 2 ^ 24 → rate = c.samplingRate) := by
  cases h : samplingRates.idxOf? c.samplingRate with
  | some index =>
    have hindex := standardRate?_of_idxOf? h
    have hi := lt_of_standardRate? hindex
    exact ⟨write 4 index, c.samplingRate, bits_encode_of_index h (by omega), readRate?_index hindex, fun _ => rfl⟩
  | none =>
    refine ⟨write 4 15 ++ write 24 c.samplingRate, c.samplingRate % 2 ^ 24, ?_, fun rest => ?_, Nat.mod_eq_of_lt⟩
    · rw [bits_encode_of_none h, List.append_assoc]
    · rw [List.append_assoc, ← write_mod 24, readRate?_escape (Nat.mod_lt _ (by decide))]

/-- A configuration is read off its written form, with the object type and the channels that it has. -/
theorem exists_decode? {c : AudioConfig} (ho : c.objectType < 32) : ∃ rate,
    decode? (Bytes.bits c.encode) = some (⟨c.objectType, rate, min c.channels 7⟩, write 3 0) ∧
      (c.samplingRate < 2 ^ 24 → rate = c.samplingRate) := by
  obtain ⟨rateBits, rate, hbits, hread, hrate⟩ := exists_rateBits c
  refine ⟨rate, ?_, hrate⟩
  rw [hbits, decode?, read?_write_of_lt ho]
  simp only [Option.bind_eq_bind, Option.bind_some]
  rw [hread]
  simp only [Option.bind_some]
  rw [read?_write_of_lt (by omega)]
  rfl

/-- **A configuration comes back from its written form**, and three zero bits are left over. -/
theorem decode?_encode {c : AudioConfig} (ho : c.objectType < 32) (hr : c.samplingRate < 2 ^ 24) :
    decode? (Bytes.bits c.encode) = some ({ c with channels := min c.channels 7 }, write 3 0) := by
  obtain ⟨rate, hdecode, hrate⟩ := exists_decode? ho
  rw [hdecode, hrate hr]

end AudioConfig

namespace Adts

open Bits

theorem fields_lt {data : Bytes} {h : Header} (hd : header? data = .ok (some h)) :
    1 ≤ h.objectType ∧ h.objectType ≤ 4 ∧ h.samplingIndex < 13 ∧ h.channelConfig < 8 := by
  obtain ⟨b1, b2, b3, b4, b5, b6, rest, rfl, -, rfl, -, hindex, -⟩ := header?_eq_some.1 hd
  have hb2 : b2.toNat < 256 := b2.toNat_lt
  have hb3 : b3.toNat < 256 := b3.toNat_lt
  refine ⟨Nat.le_add_left 1 _, ?_, hindex, ?_⟩
  · show b2.toNat / 64 + 1 ≤ 4
    omega
  · show b2.toNat % 2 * 4 + b3.toNat / 64 < 8
    omega

/-- Where the fields of an accepted header stand: behind the syncword and three flags, in a row but for one bit. -/
theorem exists_bits_header {data : Bytes} {h : Header} (hd : header? data = .ok (some h)) :
    ∃ front own after : List Bool, front.length = 16 ∧ own.length = 1 ∧
      data.bits = front ++ (write 2 (h.objectType - 1) ++ (write 4 h.samplingIndex ++
        (own ++ (write 3 h.channelConfig ++ after)))) := by
  obtain ⟨b1, b2, b3, b4, b5, b6, rest, rfl, -, rfl, -, -, -⟩ := header?_eq_some.1 hd
  have hb3 : b3.toNat < 256 := b3.toNat_lt
  have hprofile : write 2 (b2.toNat >>> 6) = write 2 (b2.toNat / 64 + 1 - 1) := by
    rw [Nat.shiftRight_eq_div_pow, Nat.add_sub_cancel]
  have hindex : write 4 (b2.toNat >>> 2) = write 4 (b2.toNat / 4 % 16) := by
    rw [Nat.shiftRight_eq_div_pow]
    exact (write_mod 4 _).symm
  -- the channel configuration lies across two bytes
  have hchannels : write 1 b2.toNat ++ write 2 (b3.toNat >>> 6) = write 3 (b2.toNat % 2 * 4 + b3.toNat / 64) := by
    have hadd := write_add 1 2 (b2.toNat % 2) (n := b3.toNat / 64) (by omega)
    rw [Nat.shiftLeft_eq] at hadd
    rw [Nat.shiftRight_eq_div_pow, ← write_mod 1]
    exact hadd.symm
  refine ⟨write 8 0xFF ++ write 8 b1.toNat, write 1 (b2.toNat >>> 1),
    write 6 b3.toNat ++ Bytes.bits (b4 :: b5 :: b6 :: rest), by simp, by simp, ?_⟩
  have hbits : Bytes.bits (0xFF :: b1 :: b2 :: b3 :: b4 :: b5 :: b6 :: rest) = write 8 0xFF ++ (write 8 b1.toNat ++
      (write 8 b2.toNat ++ (write 8 b3.toNat ++ Bytes.bits (b4 :: b5 :: b6 :: rest)))) := rfl
  rw [hbits, write_shiftRight 2 6 b2.toNat, write_shiftRight 4 2 b2.toNat, write_shiftRight 1 1 b2.toNat,
    write_shiftRight 2 6 b3.toNat, hprofile, hindex]
  simp only [fields, ← hchannels, List.append_assoc]

/-- **The fields of an accepted header are bits of its own.** -/
theorem readAt_header {data : Bytes} {h : Header} (hd : header? data = .ok (some h)) :
    readAt 16 2 data.bits + 1 = h.objectType ∧ readAt 18 4 data.bits = h.samplingIndex ∧
      readAt 23 3 data.bits = h.channelConfig := by
  obtain ⟨front, own, after, hfront, hown, hbits⟩ := exists_bits_header hd
  obtain ⟨hone, hobject, hindex, hchannels⟩ := fields_lt hd
  rw [hbits]
  refine ⟨?_, ?_, ?_⟩
  · rw [readAt_append hfront 0, readAt_write (by omega)]
    omega
  · rw [readAt_append hfront (2 + 0), readAt_append (length_write _ _) 0, readAt_write (by omega)]
  · rw [readAt_append hfront (2 + (4 + (1 + 0))), readAt_append (length_write _ _), readAt_append (length_write _ _),
      readAt_append hown, readAt_write (by omega)]

theorem standardRate?_of_header {data : Bytes} {h : Header} (hd : header? data = .ok (some h)) :
    standardRate? h.samplingIndex = some h.samplingRate := by
  obtain ⟨-, -, hindex, -⟩ := fields_lt hd
  have hlen : h.samplingIndex < samplingRates.length := hindex
  rw [← samplingRates_getElem?, Header.samplingRate, List.getD_eq_getElem?_getD, List.getElem?_eq_getElem hlen]
  rfl

end Adts

/-- A frame with a header makes its configuration the one of the track. -/
theorem AudioStream.description_of_header {f : AudioFrame} {h : Adts.Header} (hd : Adts.header? f.data = .ok (some h))
    (a : Assembly) (s : AudioStream) : ∃ isNew b t, manage a s f = .ok (isNew, b, t) ∧
      (description b t).1 = (AudioConfig.ofHeader h).encode := by
  have hne : f.data.isEmpty = false := by
    cases hdata : f.data with
    | nil =>
      rw [hdata] at hd
      cases hd
    | cons b bs => rfl
  rw [manage, hne, hd]
  exact ⟨_, _, _, rfl, rfl⟩

namespace AudioConfig

open Bits

/-- **A decoder configuration reads back.**  Every object type, sampling rate and channel count that has room comes back
from the written form, more than seven channels as seven, and three zero bits are left over.  Of an accepted ADTS header
these are the profile, the rate of the index and the channel configuration that its own bits hold, and they are the
configuration of a track that takes a frame with that header. -/
theorem config_reads_back :
    (∀ c : AudioConfig, c.objectType ≤ 30 → c.samplingRate < 2 ^ 24 →
      decode? c.encode.bits =
        some (⟨c.objectType, c.samplingRate, min c.channels 7⟩, [false, false, false])) ∧
    ∀ (data : Bytes) (h : Adts.Header), Adts.header? data = .ok (some h) →
      ∃ rate, standardRate? (readAt 18 4 data.bits) = some rate ∧
        decode? (ofHeader h).encode.bits =
          some (⟨readAt 16 2 data.bits + 1, rate, readAt 23 3 data.bits⟩, [false, false, false]) ∧
        ∀ (a : Assembly) (s : AudioStream) (f : AudioFrame), f.data = data →
          ∃ isNew b t, AudioStream.manage a s f = .ok (isNew, b, t) ∧
            (AudioStream.description b t).1 = (ofHeader h).encode := by
  refine ⟨fun c ho hr => decode?_encode (by omega) hr, fun data h hd => ?_⟩
  obtain ⟨hobject, hindex, hchannels⟩ := Adts.readAt_header hd
  obtain ⟨-, hobjectMax, -, hchannelsMax⟩ := Adts.fields_lt hd
  have hrate := Adts.standardRate?_of_header hd
  have hrateMax := le_of_standardRate? hrate
  refine ⟨h.samplingRate, by rw [hindex, hrate], ?_, ?_⟩
  · have hmin : min h.channelConfig 7 = h.channelConfig := Nat.min_eq_left (by omega)
    rw [hobject, hchannels, decode?_encode (by show h.objectType < 32; omega) (by show h.samplingRate < 2 ^ 24; omega)]
    simp only [ofHeader, hmin]
    rfl
  · rintro a s f rfl
    exact AudioStream.description_of_header hd a s

/-- AAC-LC at a rate of the table and, with more channels than are counted, at one that has no index; and the configuration
that a header announces. -/
theorem config_reads_back_examples :
    let header : Bytes := [0xFF, 0xF1, 0x4D, 0x80, 0x01, 0x1F, 0xFC]
    (2 ≤ 30 ∧ 44100 < 2 ^ 24 ∧ (⟨2, 44100, 1⟩ : AudioConfig).encode = [0x12, 0x08] ∧
      decode? (Bytes.bits [0x12, 0x08]) = some (⟨2, 44100, 1⟩, [false, false, false])) ∧
    (50000 < 2 ^ 24 ∧ decode? (⟨2, 50000, 9⟩ : AudioConfig).encode.bits = some (⟨2, 50000, 7⟩, [false, false, false])) ∧
    Adts.header? header = .ok (some ⟨2, 3, 6, 7, 8⟩) ∧
      decode? (ofHeader ⟨2, 3, 6, 7, 8⟩).encode.bits = some (⟨2, 48000, 6⟩, [false, false, false]) := by
  intro header
  have hd : Adts.header? header = .ok (some ⟨2, 3, 6, 7, 8⟩) := rfl
  obtain ⟨rate, hrate, hdecode, -⟩ := config_reads_back.2 header _ hd
  have hbits : standardRate? (readAt 18 4 header.bits) = some 48000 := by decide
  cases hrate.symm.trans hbits
  exact ⟨⟨by decide, by decide, by decide, config_reads_back.1 ⟨2, 44100, 1⟩ (by decide) (by decide)⟩,
    ⟨by decide, config_reads_back.1 ⟨2, 50000, 9⟩ (by decide) (by decide)⟩, hd, hdecode⟩

end AudioConfig
end Packager

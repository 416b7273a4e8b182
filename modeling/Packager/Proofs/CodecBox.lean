import Packager.Proofs.HeaderLayout
import Packager.Proofs.TypeScan
/-!
# Proofs.CodecBox — the codec box is found inside the sample entry

A walk takes a sample entry as plain bytes, so the box that ends it, `esds` or `avcC`, is looked for by its letters in
the sample description (`find?_of_not_mem_order`).  What is known of the bytes ahead of it leaves the letters of `esds`
no place but their own, and those of `avcC` one more: the width and the height of the picture (`places_avcC`).  The box
is found for every track but one of pictures of 24950 by 25411, whose size is written as the letters of `avcC`
(`codec_box_found_unless_spelled`).
-/
namespace Packager
namespace TrackHeader

open Bytes Box

/-- The box that ends a sample entry, with the codec configuration. -/
def codecBox : SampleEntry → Box
  | .aac _ _ config bitrate => .full esds 0 0 (elementaryStream config bitrate)
  | .avc _ _ sps pps => .leaf avcC (avcRecord sps pps)

/-- The fields behind the size of a picture. -/
def behindSize : Bytes :=
  uint32 0x00480000 ++ uint32 0x00480000 ++ zeros 4 ++ uint16 1 ++ zeros 32 ++ uint16 0x0018 ++ uint16 0xFFFF

/-- The fields of a sample entry ahead of its codec box. -/
def fields : SampleEntry → Bytes
  | .aac channels sampleRate _ _ =>
    zeros 6 ++ uint16 1 ++ zeros 8 ++ uint16 channels ++ (uint16 16 ++ zeros 4) ++
      bigEndian 4 (min sampleRate.toNat 0xFFFF * 65536)
  | .avc width height _ _ => zeros 6 ++ uint16 1 ++ zeros 16 ++ (uint16 width ++ uint16 height) ++ behindSize

theorem payload_sampleEntry (entry : SampleEntry) :
    (sampleEntry entry).payload = fields entry ++ (codecBox entry).encode := by
  cases entry <;> simp only [sampleEntry, payload, fields, behindSize, codecBox, List.append_assoc] <;> rfl

/-- The payload of a sample description ahead of the codec box. -/
def ahead (entry : SampleEntry) : Bytes :=
  zeros 4 ++ uint32 1 ++ header (sampleEntry entry).type (sampleEntry entry).payload.length ++ fields entry

theorem length_ahead (entry : SampleEntry) : (ahead entry).length = if entry.isAudio then 44 else 94 := by
  cases entry <;> simp [ahead, fields, behindSize, SampleEntry.isAudio]

theorem sampleDescription_eq (entry : SampleEntry) :
    zeros 4 ++ (uint32 1 ++ (sampleEntry entry).encode) = ahead entry ++ (codecBox entry).encode := by
  simp only [encode_eq (sampleEntry entry), ahead, payload_sampleEntry, List.append_assoc]

theorem size_codecBox_lt {entry : SampleEntry} (h : entry.Fits) : (codecBox entry).size < 2 ^ 18 := by
  have hentry := size_sampleEntry_lt h
  rw [size_eq, payload_sampleEntry, List.length_append, length_encode] at hentry
  omega

/-! ## Where the letters can stand -/

/-- The shape of a sample description up to the type of the codec box, given that of the fields of the sample entry. -/
def descriptionShape (entryType codecType : FourCC) (fields : Shape) : Shape :=
  known (zeros 4 ++ uint32 1) ++ headerShape entryType ++ fields ++ headerShape codecType

/-- The shape of a sample description of sound: the channels and the sample rate are open. -/
def soundShape : Shape :=
  descriptionShape mp4a esds
    (known (zeros 6 ++ uint16 1 ++ zeros 8) ++ unknown 2 ++ known (uint16 16 ++ zeros 4) ++
      (unknown 2 ++ known (zeros 2)))

/-- The shape of a sample description of pictures: the width and the height are open. -/
def pictureShape : Shape :=
  descriptionShape avc1 avcC (known (zeros 6 ++ uint16 1 ++ zeros 16) ++ unknown 4 ++ known behindSize)

/-- The letters of `esds` have no place but their own. -/
theorem places_esds : places esds.bytes soundShape = [48] := by decide

/-- The letters of `avcC` have one place ahead of their own, the size of the picture. -/
theorem places_avcC : places avcC.bytes pictureShape = [40, 98] := by decide

theorem covers_description {entry : SampleEntry} (h : entry.Fits) {shape : Shape} (hf : Covers shape (fields entry)) :
    Covers (descriptionShape (sampleEntry entry).type (codecBox entry).type shape)
      (ahead entry ++ header (codecBox entry).type (codecBox entry).payload.length) :=
  (((covers_known _).append (covers_header _ ((size_sampleEntry_lt h).trans (by decide)))).append hf).append
    (covers_header _ ((size_codecBox_lt h).trans (by decide)))

/-- **Letters that stand in a sample description**, no further on than those of its codec box, **stand at a place that its
shape leaves for them.** -/
theorem mem_places {entry : SampleEntry} (h : entry.Fits) {shape : Shape} (hf : Covers shape (fields entry))
    {wanted : FourCC} {k : Nat} (hk : k ≤ (ahead entry).length + 4)
    (hs : wanted.bytes <+: (ahead entry ++ (codecBox entry).encode).drop k) :
    k ∈ places wanted.bytes (descriptionShape (sampleEntry entry).type (codecBox entry).type shape) := by
  have hcovers := covers_description h hf
  have hlen := hcovers.length_eq
  rw [List.length_append, length_header] at hlen
  rw [encode_eq, ← List.append_assoc] at hs
  refine hcovers.mem_places ?_ hs
  rw [hlen]
  simp only [FourCC.bytes, List.length_cons, List.length_nil]
  omega

theorem letters_stand (entry : SampleEntry) :
    (codecBox entry).type.bytes <+: (ahead entry ++ (codecBox entry).encode).drop ((ahead entry).length + 4) := by
  rw [← List.drop_drop, List.drop_left]
  exact letters_encode _

/-- The letters of `esds` stand nowhere ahead of the codec box, whatever the channels and the sample rate. -/
theorem letters_ahead_sound (channels : UInt16) (sampleRate : UInt32) {config : Bytes} (h : config.length ≤ 232)
    (bitrate : UInt32) :
    let entry := SampleEntry.aac channels sampleRate config bitrate
    ∀ k < (ahead entry).length + 4, ¬esds.bytes <+: (ahead entry ++ (codecBox entry).encode).drop k := by
  intro entry k hk hs
  have hfits : entry.Fits := h
  have hrate : Covers (unknown 2 ++ known (zeros 2)) (bigEndian 4 (min sampleRate.toNat 0xFFFF * 65536)) := by
    rw [bigEndian_fixed]
    exact (covers_unknown (length_bigEndian 2 _)).append (covers_known _)
  have hfields : Covers _ (fields entry) :=
    (((covers_known (zeros 6 ++ uint16 1 ++ zeros 8)).append (covers_unknown (length_uint16 channels))).append
      (covers_known (uint16 16 ++ zeros 4))).append hrate
  have hplace : k ∈ places esds.bytes soundShape := mem_places hfits hfields hk.le hs
  have hlen : (ahead entry).length = 44 := length_ahead entry
  rw [places_esds, List.mem_singleton] at hplace
  omega

/-- The size of a picture is written as the letters of `avcC` when it is 24950 by 25411, and then only. -/
theorem size_spells_iff (width height : UInt16) :
    avcC.bytes = uint16 width ++ uint16 height ↔ (width, height) = (24950, 25411) := by
  have hletters : avcC.bytes = uint16 24950 ++ uint16 25411 := by decide
  constructor
  · intro h
    obtain ⟨hw, hh⟩ := List.append_inj (hletters.symm.trans h) rfl
    have hw' := congrArg toNat hw
    have hh' := congrArg toNat hh
    rw [toNat_uint16, toNat_uint16] at hw' hh'
    rw [← UInt16.toNat_inj.1 hw', ← UInt16.toNat_inj.1 hh']
  · intro h
    cases h
    exact hletters

/-- Four zeros and the size of the picture stand 36 bytes into a sample description of pictures. -/
theorem ahead_picture (width height : UInt16) (sps pps : Bytes) : ∃ front back,
    ahead (.avc width height sps pps) = front ++ (zeros 4 ++ (uint16 width ++ uint16 height ++ back)) ∧
      front.length = 36 := by
  refine ⟨zeros 4 ++ uint32 1 ++ header avc1 (sampleEntry (.avc width height sps pps)).payload.length ++
    (zeros 6 ++ uint16 1 ++ zeros 12), behindSize, ?_, by simp⟩
  have hzeros : zeros 16 = zeros 12 ++ zeros 4 := rfl
  simp only [ahead, fields, hzeros, List.append_assoc]
  rfl

theorem letters_at_size (width height : UInt16) (sps pps : Bytes) :
    let entry := SampleEntry.avc width height sps pps
    avcC.bytes <+: (ahead entry ++ (codecBox entry).encode).drop 40 ↔ (width, height) = (24950, 25411) := by
  intro entry
  obtain ⟨front, back, hahead, hfront⟩ := ahead_picture width height sps pps
  have hdrop : (ahead entry ++ (codecBox entry).encode).drop 40 =
      uint16 width ++ uint16 height ++ (back ++ (codecBox entry).encode) := by
    rw [hahead, ← List.append_assoc front, List.append_assoc, List.drop_left' (by simp [hfront]), List.append_assoc]
  have htake : (uint16 width ++ uint16 height ++ (back ++ (codecBox entry).encode)).take avcC.bytes.length =
      uint16 width ++ uint16 height := List.take_left' rfl
  rw [hdrop, List.prefix_iff_eq_take, htake]
  exact size_spells_iff width height

/-- **The letters of `avcC` stand ahead of the codec box as the size of the picture**, and nowhere else. -/
theorem letters_ahead_picture (width height : UInt16) {sps pps : Bytes} (hs : sps.length ≤ 65535)
    (hp : pps.length ≤ 65535) :
    let entry := SampleEntry.avc width height sps pps
    ∀ k < (ahead entry).length + 4, avcC.bytes <+: (ahead entry ++ (codecBox entry).encode).drop k ↔
      k = 40 ∧ (width, height) = (24950, 25411) := by
  intro entry k hk
  have hfits : entry.Fits := ⟨hs, hp⟩
  have hsize := letters_at_size width height sps pps
  constructor
  · intro hstands
    have hfields : Covers _ (fields entry) :=
      ((covers_known (zeros 6 ++ uint16 1 ++ zeros 16)).append (covers_unknown rfl)).append (covers_known behindSize)
    have hplace : k ∈ places avcC.bytes pictureShape := mem_places hfits hfields hk.le hstands
    have hlen : (ahead entry).length = 94 := length_ahead entry
    rw [places_avcC, List.mem_cons, List.mem_singleton] at hplace
    -- the other place is that of the codec box itself
    obtain rfl : k = 40 := by omega
    exact ⟨rfl, hsize.1 hstands⟩
  · rintro ⟨rfl, hspelled⟩
    exact hsize.2 hspelled

/-! ## What is found -/

/-- A scan that finds the letters of the codec box nowhere ahead of it answers with that box. -/
theorem scan?_own {entry : SampleEntry} (h : entry.Fits)
    (hfirst : ∀ k < (ahead entry).length + 4,
      ¬(codecBox entry).type.bytes <+: (ahead entry ++ (codecBox entry).encode).drop k) :
    scan? (codecBox entry).type (ahead entry ++ (codecBox entry).encode) = some (codecBox entry).payload := by
  have hnext := next?_encode (codecBox entry) [] ((size_codecBox_lt h).trans (by decide))
  rw [List.append_nil] at hnext
  rw [scan?_of_first ⟨letters_stand entry, hfirst⟩, hnext]
  rfl

/-- A scan that finds the letters of `avcC` in the size of the picture takes the zeros before it for the size of a box,
and answers with none. -/
theorem scan?_size (width height : UInt16) (sps pps : Bytes) :
    let entry := SampleEntry.avc width height sps pps
    FirstAt avcC.bytes (ahead entry ++ (codecBox entry).encode) 40 →
      scan? avcC (ahead entry ++ (codecBox entry).encode) = none := by
  intro entry hfirst
  obtain ⟨front, back, hahead, hfront⟩ := ahead_picture width height sps pps
  rw [hahead, List.append_assoc, List.append_assoc] at hfirst ⊢
  have hplace : 40 = front.length + 4 := by rw [hfront]
  rw [hplace] at hfirst
  have hword : ∀ rest : Bytes, (zeros 4 ++ rest).take 4 = zeros 4 := fun rest => List.take_left' rfl
  have hnone : ∀ rest : Bytes, next? (zeros 4 ++ rest) = none := fun rest =>
    next?_eq_none_iff.2 (.inr (.inl (by rw [hword]; decide)))
  rw [scan?_of_first hfirst, hnone]
  rfl

theorem scan?_codecBox {entry : SampleEntry} (h : entry.Fits) :
    scan? (codecBox entry).type (ahead entry ++ (codecBox entry).encode) =
      if entry.pictureSize = (24950, 25411) then none else some (codecBox entry).payload := by
  cases entry with
  | aac channels sampleRate config bitrate =>
    have hno : ¬((0, 0) : UInt16 × UInt16) = (24950, 25411) := by decide
    exact (scan?_own h (letters_ahead_sound channels sampleRate h bitrate)).trans (if_neg hno).symm
  | avc width height sps pps =>
    have hletters := letters_ahead_picture width height h.1 h.2
    have hlen : (ahead (.avc width height sps pps)).length = 94 := length_ahead _
    split
    · rename_i hspelled
      refine scan?_size width height sps pps ⟨(hletters 40 (by omega)).2 ⟨rfl, hspelled⟩, fun k hk hs => ?_⟩
      exact absurd ((hletters k (by omega)).1 hs).1 hk.ne
    · rename_i hspelled
      exact scan?_own h fun k hk hs => hspelled ((hletters k hk).1 hs).2

theorem type_codecBox_not_mem_order (entry : SampleEntry) : (codecBox entry).type ∉ order entry := by
  cases entry <;> exact of_decide_eq_true rfl

/-- A box of a type that no walk meets is looked for by its letters in the sample description. -/
theorem find?_of_not_mem_order {t : TrackDescription} (h : t.entry.Fits) {wanted : FourCC}
    (hw : wanted ∉ order t.entry) :
    find? containers wanted t.encode = scan? wanted (ahead t.entry ++ (codecBox t.entry).encode) := by
  have hnone : (listingAll (boxes t)).find? (·.type = wanted) = none := by
    refine List.find?_eq_none.2 fun f hf ht => hw ?_
    rw [← types_listing]
    exact List.mem_map.2 ⟨f, hf, of_decide_eq_true ht⟩
  have hstsd : ((listingAll (boxes t)).filter (·.type = FourCC.ofChars 's' 't' 's' 'd')).getLast? =
      some ⟨stsd, zeros 4 ++ (uint32 1 ++ (sampleEntry t.entry).encode)⟩ := by
    obtain ⟨trackId, timescale, entry⟩ := t
    cases entry <;> rfl
  rw [find?, walk_encode_header h, ← sampleDescription_eq]
  simp only [hnone, hstsd]

/-- **The codec box of a track is found in its initialization segment unless the size of the picture spells its type.**
It ends the sample entry, and what is found is its payload, to the byte; of pictures of 24950 by 25411 nothing is. -/
theorem codec_box_found_unless_spelled (t : TrackDescription) (h : t.Fits) :
    (sampleEntry t.entry).payload = fields t.entry ++ (codecBox t.entry).encode ∧
      find? containers (codecBox t.entry).type t.encode =
        if t.entry.pictureSize = (24950, 25411) then none else some (codecBox t.entry).payload := by
  refine ⟨payload_sampleEntry t.entry, ?_⟩
  rw [find?_of_not_mem_order h.entry (type_codecBox_not_mem_order t.entry)]
  exact scan?_codecBox h.entry

/-- A track of pictures of 640 by 360. -/
def smallPictures : TrackDescription :=
  ⟨1, 12800, .avc 640 360 [0x67, 0x42, 0xC0, 0x1E, 0xAA] [0x68, 0xCE, 0x3C, 0x80]⟩

theorem codec_box_found_unless_spelled_smallPictures : smallPictures.Fits ∧
    (sampleEntry smallPictures.entry).payload =
      fields smallPictures.entry ++ (codecBox smallPictures.entry).encode ∧
    find? containers avcC smallPictures.encode =
      some [1, 0x42, 0xC0, 0x1E, 0xFF, 0xE1, 0, 5, 0x67, 0x42, 0xC0, 0x1E, 0xAA, 1, 0, 4, 0x68, 0xCE, 0x3C, 0x80] := by
  have h : smallPictures.Fits := ⟨by decide, by decide, by decide⟩
  exact ⟨h, codec_box_found_unless_spelled smallPictures h⟩

/-- A track of the same stream with pictures of 24950 by 25411. -/
def spellingPictures : TrackDescription :=
  ⟨1, 12800, .avc 24950 25411 [0x67, 0x42, 0xC0, 0x1E, 0xAA] [0x68, 0xCE, 0x3C, 0x80]⟩

/-- The codec box is there, and is not found. -/
theorem size_hides_codec_box : spellingPictures.Fits ∧
    (sampleEntry spellingPictures.entry).payload =
      fields spellingPictures.entry ++ (codecBox spellingPictures.entry).encode ∧
    find? containers (codecBox spellingPictures.entry).type spellingPictures.encode = none ∧
    find? containers (codecBox spellingPictures.entry).type spellingPictures.encode ≠
      some (codecBox spellingPictures.entry).payload := by
  have h : spellingPictures.Fits := ⟨by decide, by decide, by decide⟩
  have hnone : find? containers (codecBox spellingPictures.entry).type spellingPictures.encode = none := by
    rw [find?_of_not_mem_order h.entry (type_codecBox_not_mem_order spellingPictures.entry)]
    decide
  refine ⟨h, payload_sampleEntry spellingPictures.entry, hnone, ?_⟩
  rw [hnone]
  exact nofun

end TrackHeader
end Packager

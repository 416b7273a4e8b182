import Packager.Proofs.DecoderConfig
import Packager.Proofs.FixedParts
import Packager.Proofs.HeaderLayout
/-!
# Proofs.CodecStrings — a codec string names what the initialization segment holds

The codec of a track is announced right after its initialization segment was written.  Readers that know nothing of how
either was made find the decoder configuration of an AAC track and the decoder configuration record of an H.264 track in
the file (`specificConfig?`, `avcRecord?`).  `Agrees` says that a codec string spells what they hold, and `codecs_agree`
that every string announced in a run agrees with the file written just before.
-/
namespace Packager

/-! ## Boxes inside boxes -/

namespace Box

mutual
/-- Whether the boxes with boxes inside are those of the types `inside`. -/
def isTyped (inside : List FourCC) : Box → Bool
  | leaf t _ => t ∉ inside
  | node t cs => t ∈ inside && areTyped inside cs

def areTyped (inside : List FourCC) : List Box → Bool
  | [] => true
  | b :: bs => isTyped inside b && areTyped inside bs
end

mutual
/-- A box whose size fits holds only boxes whose sizes fit. -/
theorem sound_of_isTyped {inside : List FourCC} : ∀ {b : Box}, isTyped inside b = true → b.size < 2 ^ 32 →
    Sound inside b
  | leaf t _, ht, hs => ⟨by simpa [isTyped] using ht, hs⟩
  | node t cs, ht, hs => by
    rw [isTyped, Bool.and_eq_true, decide_eq_true_eq] at ht
    rw [size] at hs
    exact ⟨ht.1, hs, soundAll_of_areTyped ht.2 (by omega)⟩

theorem soundAll_of_areTyped {inside : List FourCC} : ∀ {bs : List Box}, areTyped inside bs = true →
    sizeAll bs < 2 ^ 32 → SoundAll inside bs
  | [], _, _ => trivial
  | b :: bs, ht, hs => by
    rw [areTyped, Bool.and_eq_true] at ht
    rw [sizeAll] at hs
    exact ⟨sound_of_isTyped ht.1 (by omega), soundAll_of_areTyped ht.2 (by omega)⟩
end

theorem payload_isInfix (b : Box) : b.payload <:+: b.encode := by
  rw [encode_eq]
  exact (List.suffix_append _ _).isInfix

mutual
theorem isInfix_of_mem_listing : ∀ {b : Box} {f : Found}, f ∈ listing b → f.payload <:+: b.encode
  | leaf t p, f, hf => by
    rw [listing, List.mem_singleton] at hf
    rw [hf]
    exact payload_isInfix (leaf t p)
  | node t cs, f, hf => by
    rw [listing, List.mem_cons] at hf
    rcases hf with rfl | hf
    · exact payload_isInfix (node t cs)
    · exact (isInfix_of_mem_listingAll hf).trans (payload_isInfix (node t cs))

/-- What a walk lists stands in the written boxes. -/
theorem isInfix_of_mem_listingAll : ∀ {bs : List Box} {f : Found}, f ∈ listingAll bs → f.payload <:+: encodeAll bs
  | [], _, hf => by cases hf
  | b :: bs, f, hf => by
    rw [listingAll, List.mem_append] at hf
    rw [encodeAll]
    rcases hf with hf | hf
    · exact (isInfix_of_mem_listing hf).trans (List.prefix_append _ _).isInfix
    · exact (isInfix_of_mem_listingAll hf).trans (List.suffix_append _ _).isInfix
end

end Box

/-! ## Finding what decoders need -/

namespace TrackHeader

open Bytes Box

/-- The decoder configuration of an AAC track, in the descriptors of `esds`. -/
def specificConfig? (content : Bytes) : Option Bytes :=
  match (find? containers stsd content).bind sampleIn? with
  | some (.aac _ _ config _) => some config
  | _ => none

/-- The decoder configuration record of an H.264 track, the payload of `avcC`. -/
def avcRecord? (content : Bytes) : Option Bytes := do
  let table ← find? containers stsd content
  let (entry, _) ← next? (table.drop 8)
  soleBox? avcC (entry.payload.drop 78)

theorem areTyped_boxes (t : TrackDescription) : areTyped containers (boxes t) = true := by
  obtain ⟨trackId, timescale, entry⟩ := t
  cases entry <;> rfl

/-- The description of the samples, as a walk lists it. -/
def described (entry : SampleEntry) : Found := ⟨stsd, zeros 4 ++ (uint32 1 ++ (sampleEntry entry).encode)⟩

theorem find?_listing (t : TrackDescription) :
    (listingAll (boxes t)).find? (·.type = stsd) = some (described t.entry) := by
  obtain ⟨trackId, timescale, entry⟩ := t
  cases entry <;> rfl

theorem find?_stsd {t : TrackDescription} (h : t.encode.length < 2 ^ 32) :
    find? containers stsd t.encode = some (described t.entry).payload := by
  have hsize : sizeAll (boxes t) < 2 ^ 32 := by rwa [← length_encodeAll]
  exact find?_encodeAll (soundAll_of_areTyped (areTyped_boxes t) hsize) (find?_listing t)

theorem infix_described (t : TrackDescription) : (described t.entry).payload <:+: t.encode :=
  isInfix_of_mem_listingAll (List.mem_of_find?_eq_some (find?_listing t))

/-- The entry fills the description behind its count. -/
theorem drop_described (entry : SampleEntry) : (described entry).payload.drop 8 = (sampleEntry entry).encode := by
  show (zeros 4 ++ (uint32 1 ++ (sampleEntry entry).encode)).drop 8 = _
  rw [← List.append_assoc]
  exact List.drop_left' rfl

/-- The record of an H.264 track fills its entry behind the fixed fields. -/
theorem drop_avc (width height : UInt16) (sps pps : Bytes) : (sampleEntry (.avc width height sps pps)).payload.drop 78 =
    (Box.leaf avcC (avcRecord sps pps)).encode := List.drop_left' (by simp)

theorem entry_isInfix (t : TrackDescription) : (sampleEntry t.entry).encode <:+: t.encode := by
  have hdrop := (List.drop_suffix 8 (described t.entry).payload).isInfix
  rw [drop_described] at hdrop
  exact hdrop.trans (infix_described t)

/-- **The record stands in the file** whatever its size is. -/
theorem record_isInfix {t : TrackDescription} {width height : UInt16} {sps pps : Bytes}
    (he : t.entry = .avc width height sps pps) : (Box.leaf avcC (avcRecord sps pps)).encode <:+: t.encode := by
  have hdrop := (List.drop_suffix 78 (sampleEntry (.avc width height sps pps)).payload).isInfix
  rw [drop_avc] at hdrop
  exact (hdrop.trans (payload_isInfix _)).trans (he ▸ entry_isInfix t)

/-- **The record is found** in a file whose size fits the sizes of boxes. -/
theorem avcRecord?_encode {t : TrackDescription} {width height : UInt16} {sps pps : Bytes}
    (he : t.entry = .avc width height sps pps) (h : t.encode.length < 2 ^ 32) :
    avcRecord? t.encode = some (avcRecord sps pps) := by
  have hentry : (sampleEntry t.entry).size < 2 ^ 32 := by
    have hle := (entry_isInfix t).length_le
    rw [length_encode] at hle
    omega
  have hrecord : (Box.leaf avcC (avcRecord sps pps)).size < 2 ^ 32 := by
    have hle := (record_isInfix he).length_le
    rw [length_encode] at hle
    omega
  have hnext := next?_encode (sampleEntry t.entry) [] hentry
  rw [List.append_nil] at hnext
  simp only [avcRecord?, find?_stsd h, drop_described, hnext, Option.bind_eq_bind, Option.bind_some]
  rw [he, drop_avc]
  exact soleBox?_encode _ hrecord

theorem specificConfig?_encode {t : TrackDescription} {channels : UInt16} {sampleRate bitrate : UInt32} {config : Bytes}
    (he : t.entry = .aac channels sampleRate config bitrate) (h : config.length ≤ 232) :
    specificConfig? t.encode = some config := by
  have hfits : t.entry.Fits := by
    rw [he]
    exact h
  obtain ⟨-, -, -, hstsd, -⟩ := find?_boxes hfits
  rw [specificConfig?, hstsd, Option.bind_some, sampleIn?_append hfits, he]
  rfl

end TrackHeader

/-! ## What a codec string says -/

/-- Whether a file holds a decoder configuration record: it stands there in an `avcC` box, and is found there as long as
four bytes can tell the size of the file. -/
structure TrackHeader.HoldsRecord (content record : Bytes) : Prop where
  stored : (Box.leaf avcC record).encode <:+: content
  found : content.length < 2 ^ 32 → avcRecord? content = some record

/-- Whether a codec string spells what the initialization segment of a track holds.  That of an AAC track ends in the
object type that its decoder configuration tells.  That of an H.264 track, of a sequence parameter set that has them, ends
in the bytes for profile, compatibility and level, which the record holds by themselves and in the parameter set. -/
def CodecAgrees (content : Bytes) (codec : String) : Kind → Prop
  | .audio => ∃ config decoded rest, TrackHeader.specificConfig? content = some config ∧
      AudioConfig.decode? config.bits = some (decoded, rest) ∧ codec = "mp4a.40." ++ toString decoded.objectType
  | .video => ∃ record sps behind, TrackHeader.HoldsRecord content record ∧
      record.drop 6 = Bytes.bigEndian 2 sps.length ++ sps ++ behind ∧
      (sps.length ≤ 65535 → TrackHeader.parameterSet? (record.drop 6) = some (sps, behind)) ∧
      (4 ≤ sps.length → ∃ profile compatibility level,
        (record.drop 1).take 3 = [profile, compatibility, level] ∧ (sps.drop 1).take 3 = [profile, compatibility, level] ∧
        codec = "avc1." ++ String.ofList (VideoStream.hexByte profile ++ VideoStream.hexByte compatibility ++
          VideoStream.hexByte level))

theorem AudioConfig.length_encode_le (c : AudioConfig) : c.encode.length ≤ 5 := by
  unfold encode
  simp only
  split <;> simp

/-- **The codec string of an AAC track** is made of the object type that is written, as long as that has room. -/
theorem AudioStream.codec_agrees (a : Assembly) {s : AudioStream} (h : s.config.objectType < 32) :
    CodecAgrees (description a s).2.encode s.codec .audio := by
  obtain ⟨rate, hdecode, -⟩ := AudioConfig.exists_decode? h
  have hle := s.config.length_encode_le
  exact ⟨s.config.encode, _, _, TrackHeader.specificConfig?_encode rfl (by omega), hdecode, rfl⟩

/-- **The codec string of an H.264 track** is made of the parameter set that is written. -/
theorem VideoStream.codec_agrees {a : Assembly} {v : VideoStream} {metadata : Bytes} {t : TrackDescription}
    (h : description a v = .ok (metadata, t)) : CodecAgrees t.encode v.codec .video := by
  unfold description at h
  split at h
  · rename_i sps pps hsps hpps
    obtain ⟨-, rfl⟩ : _ ∧ _ = t := by simpa using h
    have hdrop : (TrackHeader.avcRecord sps pps).drop 6 =
        Bytes.bigEndian 2 sps.length ++ sps ++ (Bytes.uint8 1 ++ (Bytes.bigEndian 2 pps.length ++ pps)) := by
      simp only [TrackHeader.avcRecord, Bytes.uint8, List.append_assoc, List.cons_append, List.nil_append,
        List.drop_succ_cons, List.drop_zero]
    refine ⟨TrackHeader.avcRecord sps pps, sps, _, ⟨TrackHeader.record_isInfix rfl, TrackHeader.avcRecord?_encode rfl⟩,
      hdrop, fun hle => ?_, fun hlong => ?_⟩
    · rw [hdrop]
      exact TrackHeader.parameterSet?_append sps _ hle
    · rcases sps with _ | ⟨first, _ | ⟨profile, _ | ⟨compatibility, _ | ⟨level, rest⟩⟩⟩⟩
      case cons.cons.cons.cons =>
        refine ⟨profile, compatibility, level, rfl, rfl, ?_⟩
        unfold codec
        rw [hsps]
      all_goals exact absurd hlong (by simp)
  · cases h

theorem AudioStream.append_stream (a : Assembly) (v : AudioStream) (slot : Slot) :
    ∃ resync, (append a v slot).state.2 = { v with resync := resync } := by
  have hcut : ∀ (b : Assembly) (next : Nat), ∃ resync,
      (resynchronize b v next slot).state.2 = { v with resync := resync } := fun b next => by
    rcases resynchronize_cases b v next slot with ⟨-, he⟩ | ⟨-, -, ⟨-, he⟩ | ⟨-, g, -, he⟩ | ⟨-, -, he⟩⟩ <;> rw [he]
    · exact ⟨false, rfl⟩
    · exact ⟨false, rfl⟩
    · exact ⟨false, rfl⟩
    · exact ⟨v.resync, rfl⟩
  unfold append
  split
  · exact ⟨v.resync, rfl⟩
  · simp only
    split
    · split
      · exact hcut _ _
      · exact hcut _ _
    · exact hcut _ _

namespace Segmenter

/-- The last ADTS header that was seen. -/
def lastHeader? (s : Segmenter) : Option Adts.Header :=
  match s.stream with
  | .audio v => v.header
  | .video _ => none

/-- Whether the header that a segmenter keeps was read off a frame. -/
def HeaderRead (s : Segmenter) : Prop := ∀ h ∈ s.lastHeader?, ∃ data, Adts.header? data = .ok (some h)

/-- The codec string of a segmenter agrees with the initialization segment that it makes. -/
theorem codec_agrees {s : Segmenter} (h : s.HeaderRead) {metadata : Bytes} {t : TrackDescription}
    (hd : s.description = .ok (metadata, t)) : CodecAgrees t.encode s.codec s.kind := by
  obtain ⟨a, stream⟩ := s
  cases stream with
  | audio v =>
    cases hd
    refine v.codec_agrees a ?_
    unfold AudioStream.config
    split
    · rename_i header hheader
      obtain ⟨data, hdata⟩ := h header hheader
      obtain ⟨-, hle, -⟩ := Adts.fields_lt hdata
      exact Nat.lt_of_le_of_lt hle (by decide)
    · exact (by decide : AudioConfig.lowComplexity < 32)
  | video v => exact VideoStream.codec_agrees hd

theorem HeaderRead.of_eq {s g : Segmenter} (hs : s.HeaderRead) (h : g.lastHeader? = s.lastHeader?) : g.HeaderRead :=
  fun header hheader => hs header (h ▸ hheader)

theorem lastHeader?_append (s : Segmenter) (slot : Slot) : (s.append slot).state.lastHeader? = s.lastHeader? := by
  cases hc : s.assembly.configured with
  | false => rw [append_of_unconfigured hc]
  | true =>
    obtain ⟨a, stream⟩ := s
    cases stream with
    | video v =>
      rw [append_video v slot hc]
      rfl
    | audio v =>
      obtain ⟨resync, hstream⟩ := AudioStream.append_stream a v slot
      rw [append_audio v slot hc, hstream]
      rfl

theorem lastHeader?_finish (s : Segmenter) (slot : Slot) : (s.finish slot).state.lastHeader? = s.lastHeader? := by
  rcases s.finish_cases slot with ⟨-, he⟩ | ⟨-, -, -, phase, hstate⟩
  · rw [he]
  · rw [hstate]
    obtain ⟨a, stream⟩ := s
    cases stream <;> rfl

theorem HeaderRead.manage {s g : Segmenter} {frame : Frame} {isNew : Bool} (h : s.manage frame = .ok (isNew, g))
    (hs : s.HeaderRead) : g.HeaderRead := by
  rcases manage_cases h with ⟨a, v, f, b, w, rfl, rfl, hm, rfl⟩ | ⟨a, v, f, b, w, rfl, rfl, hm, rfl⟩
  · unfold AudioStream.manage at hm
    split at hm
    · cases hm
    · split at hm
      · cases hm
      · rename_i read hread
        cases hm
        intro header hheader
        cases read with
        | none => exact hs header hheader
        | some found =>
          cases hheader
          exact ⟨f.data, hread⟩
  · intro header hheader
    cases hheader

/-- **Every header that is kept was read off a frame.** -/
theorem headerRead_inherited : Inherited fun s g => s.HeaderRead → g.HeaderRead where
  refl := fun _ h => h
  trans := fun h h' hs => h' (h hs)
  manage := HeaderRead.manage
  configure := fun h hs => by
    obtain ⟨ticks, phase, rfl⟩ := configure_state h
    exact hs
  describe := fun s slot hs => by
    obtain ⟨metadata, described, hstate⟩ := s.describe_state slot
    rw [hstate]
    exact hs
  append := fun s slot hs => hs.of_eq (s.lastHeader?_append slot)
  finish := fun s slot hs => hs.of_eq (s.lastHeader?_finish slot)
  flush := fun s hs => by
    obtain ⟨a, stream⟩ := s
    cases stream <;> exact hs
  setOrigin := fun s origin hs => hs

theorem headerRead_start (kind : Kind) (plan : SegmenterPlan) : (start kind plan).HeaderRead := by
  intro header hheader
  cases kind <;> cases hheader

/-- **An initialization segment that was made** is that of the description, and the stream is as it was. -/
theorem describe_made {s state : Segmenter} {free slot : Slot} (h : s.describe free = ⟨.ok true, state, slot⟩) :
    ∃ metadata t, s.description = .ok (metadata, t) ∧ slot.data = t.encode ∧ state.stream = s.stream := by
  unfold describe at h
  split at h
  · cases h
  · split at h
    · cases h
    · split at h
      · cases h
      · rename_i metadata t ht
        refine ⟨metadata, t, ht, ?_⟩
        unfold Assembly.describe at h
        rcases free.load_cases t.encode 0 0 0 with he | ⟨filled, hf, hdata, -⟩
        · rw [he] at h
          cases h
        · rw [hf] at h
          cases h
          exact ⟨hdata, rfl⟩

end Segmenter

/-! ## Runs -/

/-- Whether an effect is news of a codec. -/
def Effect.tellsCodec : Effect → Bool
  | .announced (.codec _ _ _) => true
  | _ => false

namespace Journal

/-- Whether every codec in a journal was announced right after the initialization segment of the track was written, and
agrees with it. -/
def CodecsAgree (j : Journal) : Prop := ∀ later set rep codec earlier,
  j = later ++ .announced (.codec set rep codec) :: earlier →
  ∃ folder baseName id kind content before,
    earlier = .wrote (Naming.headerPath folder baseName id (Naming.fileExtension kind)) content (.ok ()) :: before ∧
    set = Naming.adaptationSet kind ∧ rep = toString id ∧ CodecAgrees content codec kind

/-- What is no news of a codec leaves it at that. -/
theorem CodecsAgree.cons {j : Journal} {e : Effect} (h : j.CodecsAgree) (he : e.tellsCodec = false) :
    CodecsAgree (e :: j) := by
  intro later set rep codec earlier hj
  cases later with
  | nil =>
    rw [(List.cons.inj hj).1] at he
    cases he
  | cons first later => exact h later set rep codec earlier (List.cons.inj hj).2

theorem CodecsAgree.emits {settings : Settings} {id : TrackId} {kind : Kind} {j k : Journal} {paths : List Path}
    (h : j.CodecsAgree) (hk : Emits settings id kind j paths k) : k.CodecsAgree := by
  induction hk with
  | nothing => exact h
  | failed _ _ _ _ ih => exact ih.cons rfl
  | published _ _ _ _ _ ih => exact (ih.cons rfl).cons rfl

end Journal

/-- **Feeding a track** announces the codec of the initialization segment that it has just written. -/
theorem Channel.feed_codec (w : World) (settings : Settings) (id : TrackId) {c : Channel} (hs : c.segmenter.HeaderRead)
    (frame : Frame) {j : Journal} (h : j.CodecsAgree) : (c.feed w.outlet settings id frame j).2.CodecsAgree := by
  have hcourse := feed_course w settings id c frame j
  generalize c.feed w.outlet settings id frame j = out at hcourse ⊢
  cases hcourse with
  | refused => exact h
  | waiting => exact h
  | rejected => exact h
  | appended => exact h
  | failed => exact h.cons rfl
  | @made _ g g' state slot hm hc hh hw =>
    obtain ⟨metadata, t, hdescription, hdata, hstream⟩ := Segmenter.describe_made hh
    have hread : g'.HeaderRead :=
      Segmenter.headerRead_inherited.configure hc (Segmenter.headerRead_inherited.manage hm hs)
    have hkind : g'.kind = c.kind := by
      rw [← (described_keeps hm hc hh).1]
      unfold Segmenter.kind
      rw [hstream]
    have hagrees := Segmenter.codec_agrees hread hdescription
    have hcodec : state.codec = g'.codec := by
      unfold Segmenter.codec
      rw [hstream]
    intro later set rep codec earlier hj
    cases later with
    | nil =>
      obtain ⟨he, rfl⟩ := List.cons.inj hj
      cases he
      refine ⟨settings.folder, settings.baseName, id, c.kind, slot.data, j, rfl, rfl, rfl, ?_⟩
      rw [hdata, hcodec, ← hkind]
      exact hagrees
    | cons first later => exact (h.cons rfl) later set rep codec earlier (List.cons.inj hj).2

namespace Presentation

variable {w : World} {s t : Presentation}

theorem Move.codecsAgree (h : Move w s t) (hs : s.Sane) (hread : s.Each Segmenter.HeaderRead)
    (hj : s.journal.CodecsAgree) : t.journal.CodecsAgree := by
  cases h with
  | manifest => exact hj.cons rfl
  | added => exact hj.cons rfl
  | counted => exact hj
  | fed hc j frame => exact Channel.feed_codec w _ _ (hread _ _ hc) frame hj
  | held => exact hj
  | discarded => exact hj
  | @released p id c window hc hh hw hv j =>
    obtain ⟨f, hf⟩ := hs.sealed id c hc (by simpa [Channel.isHolding] using hh)
    obtain ⟨-, ⟨e, -, hemits, -⟩ | ⟨-, hemits, -⟩⟩ := Channel.publish_emits w p.settings id hf j
    · exact hj.emits hemits
    · exact hj.emits hemits
  | forced => exact hj
  | @drained p id c hc hk j =>
    obtain ⟨-, -, paths, -, hemits⟩ := Channel.drain_emits w p.settings id (hs.sealed id c hc) j
    exact hj.emits hemits
  | rated => exact hj.cons rfl
  | @removed p id c hc j =>
    obtain ⟨-, -, paths, -, hemits⟩ := Channel.drain_emits w p.settings id (hs.sealed id c hc) j
    exact (hj.emits hemits).cons rfl

theorem Relocated.codecsAgree (h : Relocated s t) (hj : s.journal.CodecsAgree) : t.journal.CodecsAgree := by
  cases h with
  | refused => exact hj
  | failed => exact hj.cons rfl
  | done => exact (hj.cons rfl).cons rfl

/-- **Every codec that is announced agrees with the initialization segment written just before**, in every run and every
world: the file is that of the track, and the codec string spells the object type in its decoder configuration or the
profile, compatibility and level in its decoder configuration record. -/
theorem codecs_agree (w : World) (settings : Settings) (ops : List Operation) :
    ((start settings).run w ops).journal.CodecsAgree := by
  have hmove : ∀ s t, Move w s t → s.Sane → s.Each Segmenter.HeaderRead ∧ s.journal.CodecsAgree →
      t.Each Segmenter.HeaderRead ∧ t.journal.CodecsAgree := fun _ _ hm hsane hs =>
    ⟨hm.each Segmenter.headerRead_inherited Segmenter.headerRead_start (fun _ _ h => h) hs.1,
      hm.codecsAgree hsane hs.1 hs.2⟩
  have hstart : (start settings).Each Segmenter.HeaderRead ∧ (start settings).journal.CodecsAgree := by
    refine ⟨fun _ _ hf => (by cases hf), ?_⟩
    intro later set rep codec earlier hj
    cases later <;> cases hj
  exact (run_kept hmove (fun _ _ hr hs => ⟨hr.each hs.1, hr.codecsAgree hs.2⟩) hstart ops).2.2

/-- A frame of AAC Main with an ADTS header. -/
def mainFrame : Frame := .audio ⟨1000000000, 0, 0, 1024, [0xFF, 0xF1, 0x0C, 0x80, 0x01, 0x1F, 0xFC, 0x21]⟩

/-- A picture without parameter sets, forty milliseconds after the first. -/
def laterPicture : Frame := .video ⟨1040000000, 640, 480, [0, 0, 0, 1, 0x41, 0x88]⟩

/-- Whether an effect is the news of a codec of a track. -/
def isCodecOf (id : TrackId) (kind : Kind) (codec : String) : Effect → Bool
  | .announced (.codec set rep codec') => set == Naming.adaptationSet kind && rep == toString id && codec' == codec
  | _ => false

/-- The object type of an ADTS header that is not that of AAC-LC, and the profile of a parameter set of four bytes. -/
theorem codecs_agree_mainProfile :
    let s := (start .default).run .obliging [.addTrack 1 .audio, .addTrack 2 .video,
      .cycle [(1, mainFrame), (2, onePicture)], .cycle [(2, laterPicture)]]
    let written (id : TrackId) (kind : Kind) (codec : String) : Prop := ∃ folder baseName content later before,
      CodecAgrees content codec kind ∧ s.journal = later ++
        .announced (.codec (Naming.adaptationSet kind) (toString id) codec) ::
          .wrote (Naming.headerPath folder baseName id (Naming.fileExtension kind)) content (.ok ()) :: before
    written 1 .audio "mp4a.40.1" ∧ written 2 .video "avc1.420001" := by
  intro s written
  have hagree : s.journal.CodecsAgree := codecs_agree _ _ _
  have haudio : s.journal.any (isCodecOf 1 .audio "mp4a.40.1") = true := by decide +kernel
  have hvideo : s.journal.any (isCodecOf 2 .video "avc1.420001") = true := by decide +kernel
  clear_value s
  have hwritten : ∀ id kind codec, s.journal.any (isCodecOf id kind codec) = true → written id kind codec := by
    intro id kind codec hany
    obtain ⟨e, he, hnews⟩ := List.any_eq_true.1 hany
    unfold isCodecOf at hnews
    split at hnews
    · simp only [Bool.and_eq_true, beq_iff_eq, and_assoc] at hnews
      obtain ⟨rfl, rfl, rfl⟩ := hnews
      obtain ⟨later, earlier, hj⟩ := List.append_of_mem he
      obtain ⟨folder, baseName, id', kind', content, before, rfl, hset, hrep, hcodec⟩ := hagree _ _ _ _ _ hj
      obtain rfl := toString_inj hrep
      obtain rfl := Naming.adaptationSet_inj hset
      exact ⟨folder, baseName, content, later, before, hcodec, hj⟩
    · cases hnews
  exact ⟨hwritten _ _ _ haudio, hwritten _ _ _ hvideo⟩

end Presentation
end Packager

import Packager.Fragment
import Packager.Proofs.BoxForest
/-!
# Proofs.SegmentLayout — a media segment decodes back to its fragment

A reader that knows boxes, fixed fields and the track run, and nothing of how a segment was made, finds the whole
fragment again (`segment_reads_back`): the eight boxes in their order with no byte between or behind them, the numbers
in `mfhd`, `tfhd` and `tfdt`, one entry for each sample, and the sample bytes where the data offset points.  `ReadsAs`
lists what it finds; a byte string reads as one fragment at most (`ReadsAs.unique`).
-/
namespace Packager
namespace Fragment

open Bytes Box

def styp : FourCC := .ofChars 's' 't' 'y' 'p'
def moof : FourCC := .ofChars 'm' 'o' 'o' 'f'
def mfhd : FourCC := .ofChars 'm' 'f' 'h' 'd'
def traf : FourCC := .ofChars 't' 'r' 'a' 'f'
def tfhd : FourCC := .ofChars 't' 'f' 'h' 'd'
def tfdt : FourCC := .ofChars 't' 'f' 'd' 't'
def trun : FourCC := .ofChars 't' 'r' 'u' 'n'
def mdat : FourCC := .ofChars 'm' 'd' 'a' 't'

structure RunEntry where
  duration : Nat
  size : Nat
  flags : Nat
  deriving DecidableEq, Repr

def runEntry (s : Sample) : RunEntry := ⟨s.duration.toNat, s.data.length, s.flags.toNat⟩

/-- The entries that stand one after the other at the start of a byte string. -/
def readEntries : Nat → Bytes → List RunEntry
  | 0, _ => []
  | n + 1, bs => ⟨toNat (slice 0 4 bs), toNat (slice 4 4 bs), toNat (slice 8 4 bs)⟩ :: readEntries n (bs.drop 12)

/-- The pieces of the given sizes that stand one after the other at the start of a byte string. -/
def cut : List Nat → Bytes → List Bytes
  | [], _ => []
  | n :: ns, bs => bs.take n :: cut ns (bs.drop n)

/-- What a reader of boxes finds in the bytes of a media segment. -/
structure ReadsAs (data : Bytes) (f : Fragment) : Prop where
  /-- The boxes, in the order in which a walk meets them. -/
  types : (walk containers data).map Found.type = [styp, moof, mfhd, traf, tfhd, tfdt, trun, mdat]
  whole : ReadsAll containers data
  sequence : (find? containers mfhd data).bind (readUInt32 4) = some f.sequence.toNat
  track : (find? containers tfhd data).bind (readUInt32 4) = some f.trackId.toNat
  decodeTime : (find? containers tfdt data).bind (readUInt64 4) = some f.decodeTime.toNat
  /-- The track run counts the samples and holds an entry for each, and nothing else. -/
  entries : ∃ run, find? containers trun data = some run ∧ readUInt32 4 run = some f.samples.length ∧
    run.length = 12 + 12 * f.samples.length ∧ readEntries f.samples.length (run.drop 12) = f.samples.map runEntry
  /-- The data offset leads from the start of `moof` to the first byte behind the header of `mdat`. -/
  offset : ∃ start offset media, position? moof data = some start ∧ position? mdat data = some media ∧
    (find? containers trun data).bind (readUInt32 8) = some offset ∧ start + offset = media + 8
  /-- The sizes in the track run cut the payload of `mdat` into the samples. -/
  pieces : ∃ media, find? containers mdat data = some media ∧
    cut (f.samples.map (·.data.length)) media = f.samples.map Sample.data ∧
    (f.samples.map (·.data.length)).sum = media.length

/-- Whether the sizes of `moof` and `mdat` fit the four bytes that they are written in. -/
def Fits (f : Fragment) : Prop :=
  (f.movieFragment f.dataOffset).size < 2 ^ 32 ∧ 8 + f.payload.length < 2 ^ 32

/-! ## Entries and pieces -/

@[simp] theorem length_entry (s : Sample) : s.entry.length = 12 := by
  simp [Sample.entry]

theorem length_entries : ∀ ss : List Sample, (ss.flatMap Sample.entry).length = 12 * ss.length
  | [] => rfl
  | s :: ss => by
    rw [List.flatMap_cons, List.length_append, length_entry, length_entries ss, List.length_cons, Nat.mul_succ,
      Nat.add_comm]

theorem readEntries_flatMap : ∀ ss : List Sample, (∀ s ∈ ss, s.data.length < 2 ^ 32) →
    readEntries ss.length (ss.flatMap Sample.entry) = ss.map runEntry
  | [], _ => rfl
  | s :: ss, h => by
    have hs : s.data.length < 256 ^ 4 := h s List.mem_cons_self
    have he : (s :: ss).flatMap Sample.entry =
        uint32 s.duration ++ (bigEndian 4 s.data.length ++ (uint32 s.flags ++ ss.flatMap Sample.entry)) := by
      simp [Sample.entry]
    have hd : ((s :: ss).flatMap Sample.entry).drop 12 = ss.flatMap Sample.entry := by
      rw [List.flatMap_cons, ← length_entry s, List.drop_left]
    have h0 := slice_middle 0 4 [] (uint32 s.duration) (bigEndian 4 s.data.length ++ (uint32 s.flags ++
      ss.flatMap Sample.entry)) rfl (length_uint32 s.duration)
    have h4 := slice_middle 4 4 (uint32 s.duration) (bigEndian 4 s.data.length)
      (uint32 s.flags ++ ss.flatMap Sample.entry) (length_uint32 s.duration) (length_bigEndian 4 s.data.length)
    have h8 := slice_middle 8 4 (uint32 s.duration ++ bigEndian 4 s.data.length) (uint32 s.flags)
      (ss.flatMap Sample.entry) (by simp) (length_uint32 s.flags)
    rw [List.length_cons, readEntries, hd, readEntries_flatMap ss (fun x hx => h x (List.mem_cons_of_mem s hx)), he]
    rw [List.nil_append] at h0
    rw [List.append_assoc] at h8
    rw [h0, h4, h8, toNat_uint32, toNat_uint32, toNat_bigEndian hs]
    rfl

theorem cut_flatMap : ∀ ss : List Sample, cut (ss.map (·.data.length)) (ss.flatMap Sample.data) = ss.map Sample.data
  | [] => rfl
  | s :: ss => by
    rw [List.map_cons, List.flatMap_cons, cut, List.take_left, List.drop_left, cut_flatMap ss, List.map_cons]

theorem runEntry_inj {s t : Sample} (he : runEntry s = runEntry t) (hd : s.data = t.data) : s = t := by
  obtain ⟨d, sync, data⟩ := s
  obtain ⟨d', sync', data'⟩ := t
  simp only [runEntry, RunEntry.mk.injEq, Sample.flags] at he hd
  obtain ⟨h1, -, h3⟩ := he
  have hs : sync = sync' := by cases sync <;> cases sync' <;> first | rfl | cases h3
  rw [UInt32.toNat_inj.1 h1, hs, hd]

/-- Samples are told apart by their entries and their bytes. -/
theorem samples_inj : ∀ {ss ts : List Sample}, ss.map runEntry = ts.map runEntry →
    ss.map Sample.data = ts.map Sample.data → ss = ts
  | [], [], _, _ => rfl
  | s :: ss, t :: ts, he, hd => by
    rw [List.map_cons, List.map_cons, List.cons.injEq] at he hd
    rw [runEntry_inj he.1 hd.1, samples_inj he.2 hd.2]

/-- **A byte string reads as one fragment at most.** -/
theorem ReadsAs.unique {data : Bytes} {f g : Fragment} (hf : ReadsAs data f) (hg : ReadsAs data g) : f = g := by
  obtain ⟨run, hrun, hn, -, he⟩ := hf.entries
  obtain ⟨run', hrun', hn', -, he'⟩ := hg.entries
  obtain ⟨media, hm, hc, -⟩ := hf.pieces
  obtain ⟨media', hm', hc', -⟩ := hg.pieces
  rw [hrun] at hrun'
  rw [hm] at hm'
  cases hrun'
  cases hm'
  rw [hn] at hn'
  rw [Option.some.inj hn', he'] at he
  have hsizes : g.samples.map (·.data.length) = f.samples.map (·.data.length) := by
    have := congrArg (List.map RunEntry.size) he
    simpa [List.map_map, runEntry, Function.comp_def] using this
  rw [← hsizes, hc'] at hc
  have h1 := Option.some.inj (hf.sequence.symm.trans hg.sequence)
  have h2 := Option.some.inj (hf.track.symm.trans hg.track)
  have h3 := Option.some.inj (hf.decodeTime.symm.trans hg.decodeTime)
  have h4 := samples_inj he hc
  obtain ⟨track, sequence, time, samples⟩ := f
  obtain ⟨track', sequence', time', samples'⟩ := g
  simp only at h1 h2 h3 h4
  rw [UInt32.toNat_inj.1 h1, UInt32.toNat_inj.1 h2, UInt64.toNat_inj.1 h3, h4]

/-! ## The written boxes -/

theorem size_movieFragment (f : Fragment) (o : Nat) : (f.movieFragment o).size = 88 + 12 * f.samples.length := by
  simp only [movieFragment, trackRun, full, size, sizeAll, List.length_append, length_bigEndian, length_uint32,
    length_uint64, length_entries]
  omega

theorem dataOffset_eq (f : Fragment) : f.dataOffset = 96 + 12 * f.samples.length := by
  rw [dataOffset, size_movieFragment]
  omega

/-- The data offset fits its four bytes whenever the size of `moof` does, although it is larger: the sizes of `moof`
leave the same rest modulo 12 as `2 ^ 32`, so none lies within eight bytes of it. -/
theorem Fits.dataOffset_lt {f : Fragment} (h : f.Fits) : f.dataOffset < 256 ^ 4 := by
  have h1 := h.1
  rw [size_movieFragment] at h1
  rw [dataOffset_eq]
  omega

theorem length_data_le_payload {f : Fragment} {s : Sample} (h : s ∈ f.samples) : s.data.length ≤ f.payload.length := by
  obtain ⟨before, after, hs⟩ := List.append_of_mem h
  rw [payload, hs, List.flatMap_append, List.flatMap_cons, List.length_append, List.length_append]
  omega

/-- The boxes of a segment as a reader should see them. -/
def boxesSeen (f : Fragment) : List Found :=
  listing segmentType ++ listing (f.movieFragment f.dataOffset) ++ [⟨mdat, f.payload⟩]

theorem soundAll_boxes {f : Fragment} (h : f.Fits) : SoundAll containers f.boxes := by
  obtain ⟨hm, hd⟩ := h
  have hs := size_movieFragment f f.dataOffset
  rw [hs] at hm
  refine ⟨⟨by decide, by decide⟩, ⟨by decide, ?_, ⟨by decide, ?_⟩, ⟨by decide, ?_, ⟨by decide, ?_⟩, ⟨by decide, ?_⟩,
    ⟨by decide, ?_⟩, trivial⟩, trivial⟩, ⟨by decide, hd⟩, trivial⟩ <;>
  · simp only [trackRun, full, sizeAll, size, List.length_append, length_bigEndian, length_uint32, length_uint64,
      length_entries]
    omega

theorem walk_encode_segment {f : Fragment} (h : f.Fits) : walk containers f.encode = f.boxesSeen := by
  have hw := walk_encodeAll containers f.boxes [] (soundAll_boxes h)
  rw [List.append_nil, walk_nil, List.append_nil] at hw
  rw [encode, hw]
  rfl

theorem find?_encode_segment {f : Fragment} (h : f.Fits) (wanted : FourCC) (b : Found)
    (hb : f.boxesSeen.find? (·.type = wanted) = some b) : find? containers wanted f.encode = some b.payload := by
  rw [find?, walk_encode_segment h]
  simp only [hb]

def runPayload (f : Fragment) : Bytes :=
  bigEndian 1 0 ++ bigEndian 3 0x000701 ++
    (bigEndian 4 f.samples.length ++ bigEndian 4 f.dataOffset ++ f.samples.flatMap Sample.entry)

theorem find?_trun {f : Fragment} (h : f.Fits) : find? containers trun f.encode = some f.runPayload :=
  find?_encode_segment h trun ⟨trun, f.runPayload⟩ rfl

theorem readUInt32_count {f : Fragment} (h : f.Fits) : readUInt32 4 f.runPayload = some f.samples.length := by
  have hn : f.samples.length < 256 ^ 4 := by
    have := h.1
    rw [size_movieFragment] at this
    omega
  have hr := readAt_field 4 4 (bigEndian 1 0 ++ bigEndian 3 0x000701) (bigEndian 4 f.samples.length)
    (bigEndian 4 f.dataOffset ++ f.samples.flatMap Sample.entry) (by simp) (length_bigEndian 4 f.samples.length)
  rw [toNat_bigEndian hn] at hr
  rw [readUInt32, runPayload, List.append_assoc (bigEndian 4 _)]
  exact hr

theorem readUInt32_offset {f : Fragment} (h : f.Fits) : readUInt32 8 f.runPayload = some f.dataOffset := by
  have hr := readAt_field 4 8 (bigEndian 1 0 ++ bigEndian 3 0x000701 ++ bigEndian 4 f.samples.length)
    (bigEndian 4 f.dataOffset) (f.samples.flatMap Sample.entry) (by simp) (length_bigEndian 4 f.dataOffset)
  rw [toNat_bigEndian h.dataOffset_lt, List.append_assoc] at hr
  rw [readUInt32, runPayload, List.append_assoc (bigEndian 4 _)]
  exact hr

theorem type_movieFragment (f : Fragment) (o : Nat) : (f.movieFragment o).type = moof := rfl

theorem position?_moof {f : Fragment} (h : f.Fits) : position? moof f.encode = some 24 := by
  obtain ⟨h1, h2, -, -⟩ := soundAll_boxes h
  rw [encode, boxes, encodeAll, position?_encode _ _ _ h1.size_lt, if_neg (by decide), encodeAll,
    position?_encode _ _ _ h2.size_lt, if_pos (type_movieFragment f _)]
  rfl

theorem position?_mdat {f : Fragment} (h : f.Fits) : position? mdat f.encode = some (112 + 12 * f.samples.length) := by
  obtain ⟨h1, h2, h3, -⟩ := soundAll_boxes h
  have ht : (Box.leaf (.ofChars 'm' 'd' 'a' 't') f.payload).type = mdat := rfl
  rw [encode, boxes, encodeAll, position?_encode _ _ _ h1.size_lt, if_neg (by decide), encodeAll,
    position?_encode _ _ _ h2.size_lt, type_movieFragment, if_neg (by decide), encodeAll,
    position?_encode _ _ _ h3.size_lt, if_pos ht, size_movieFragment]
  simp only [Option.map_some, Option.some.injEq]
  show 0 + (88 + 12 * f.samples.length) + 24 = _
  omega

/-- **A media segment decodes back to the fragment it was made of**, and no other fragment has the same bytes. -/
theorem segment_reads_back (f : Fragment) (h : f.Fits) :
    ReadsAs f.encode f ∧ ∀ g : Fragment, g.Fits → g.encode = f.encode → g = f := by
  have hreads : ∀ g : Fragment, g.Fits → ReadsAs g.encode g := fun g hg => {
    types := by rw [walk_encode_segment hg]; rfl
    whole := readsAll_encodeAll (soundAll_boxes hg)
    sequence := by
      rw [find?_encode_segment hg mfhd ⟨mfhd, bigEndian 1 0 ++ bigEndian 3 0 ++ uint32 g.sequence⟩ rfl]
      have := readAt_field 4 4 (bigEndian 1 0 ++ bigEndian 3 0) (uint32 g.sequence) [] (by simp)
        (length_uint32 g.sequence)
      rwa [List.append_nil, toNat_uint32] at this
    track := by
      rw [find?_encode_segment hg tfhd ⟨tfhd, bigEndian 1 0 ++ bigEndian 3 0x020000 ++ uint32 g.trackId⟩ rfl]
      have := readAt_field 4 4 (bigEndian 1 0 ++ bigEndian 3 0x020000) (uint32 g.trackId) [] (by simp)
        (length_uint32 g.trackId)
      rwa [List.append_nil, toNat_uint32] at this
    decodeTime := by
      rw [find?_encode_segment hg tfdt ⟨tfdt, bigEndian 1 1 ++ bigEndian 3 0 ++ uint64 g.decodeTime⟩ rfl]
      have := readAt_field 8 4 (bigEndian 1 1 ++ bigEndian 3 0) (uint64 g.decodeTime) [] (by simp)
        (length_uint64 g.decodeTime)
      rwa [List.append_nil, toNat_uint64] at this
    entries := by
      refine ⟨_, find?_trun hg, readUInt32_count hg, ?_, ?_⟩
      · simp only [runPayload, List.length_append, length_bigEndian, length_entries]
        omega
      · have hd : g.runPayload.drop 12 = g.samples.flatMap Sample.entry := by
          rw [runPayload, ← List.append_assoc, ← List.append_assoc]
          exact List.drop_left' (by simp)
        rw [hd]
        refine readEntries_flatMap g.samples fun s hs => ?_
        have := length_data_le_payload hs
        have := hg.2
        omega
    offset := by
      refine ⟨24, g.dataOffset, 112 + 12 * g.samples.length, position?_moof hg, position?_mdat hg, ?_, ?_⟩
      · rw [find?_trun hg]
        exact readUInt32_offset hg
      · rw [dataOffset_eq]
        omega
    pieces := by
      refine ⟨_, find?_encode_segment hg mdat ⟨mdat, g.payload⟩ rfl, cut_flatMap g.samples, ?_⟩
      rw [payload, List.length_flatMap] }
  refine ⟨hreads f h, fun g hg he => ?_⟩
  exact (he ▸ hreads g hg : ReadsAs f.encode g).unique (hreads f h)

/-- Two samples of different sizes, the second no sync sample. -/
def twoSamples : Fragment := ⟨1, 7, 25662, [⟨273, true, [1, 2, 3]⟩, ⟨546, false, [4, 5]⟩]⟩

theorem twoSamples_reads_back : twoSamples.Fits ∧ ReadsAs twoSamples.encode twoSamples ∧
    ∀ g : Fragment, g.Fits → g.encode = twoSamples.encode → g = twoSamples := by
  have h : twoSamples.Fits := ⟨by decide, by decide⟩
  exact ⟨h, segment_reads_back twoSamples h⟩

end Fragment
end Packager

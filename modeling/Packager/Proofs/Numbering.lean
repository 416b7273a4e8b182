import Packager.Proofs.FragmentLife
import Packager.Proofs.Listing
/-!
# Proofs.Numbering — segments are numbered one after the other

The number of a fragment is used up only when the fragment is in a slot.  So the n-th slot that is ever filled has number
n, beside its bytes and in them, whatever fragments were given up or lost in between, and it starts at the tick of the
frame that its fragment opens with (`numbered_without_gap`).
-/
namespace Packager

/-- Whether a media segment says a number, in its bytes and for a reader of boxes. -/
structure SaysNumber (content : Bytes) (number : Nat) : Prop where
  word : Bytes.readUInt32 44 content = some number
  found : content.length < 2 ^ 32 →
    (Box.find? Box.containers Fragment.mfhd content).bind (Bytes.readUInt32 4) = some number

namespace Fragment

open Bytes Box

theorem encode_around_sequence (f : Fragment) :
    ∃ front back, f.encode = front ++ (uint32 f.sequence ++ back) ∧ front.length = 44 := by
  let mfhdBox := full mfhd 0 0 (uint32 f.sequence)
  let trafBox := Box.node traf [full tfhd 0 0x020000 (uint32 f.trackId), full tfdt 1 0 (uint64 f.decodeTime),
    trackRun f.samples f.dataOffset]
  refine ⟨segmentType.encode ++ (header moof (encodeAll [mfhdBox, trafBox]).length ++
    (header mfhd 8 ++ (bigEndian 1 0 ++ bigEndian 3 0))), trafBox.encode ++ (Box.leaf mdat f.payload).encode, ?_, ?_⟩
  · show segmentType.encode ++ ((header moof _ ++ ((header mfhd 8 ++ (bigEndian 1 0 ++ bigEndian 3 0 ++ uint32 f.sequence)) ++
      (trafBox.encode ++ []))) ++ ((Box.leaf mdat f.payload).encode ++ [])) = _
    simp only [List.append_assoc, List.append_nil]
    rfl
  · simp only [List.length_append, length_header, length_bigEndian, length_encode, size, segmentType, FourCC.bytes,
      length_zeros, List.length_cons, List.length_nil]

theorem saysNumber_encode {f : Fragment} {number : Nat} (h : f.sequence = .ofNat number) (hfit : number < 2 ^ 32) :
    SaysNumber f.encode number := by
  have hword : f.sequence.toNat = number := by
    rw [h]
    exact UInt32.toNat_ofNat_of_lt' hfit
  refine ⟨?_, fun hlength => ?_⟩
  · obtain ⟨front, back, hf, hlen⟩ := encode_around_sequence f
    rw [hf, readUInt32_field 44 front f.sequence back hlen, hword]
  · rw [← hword]
    exact (segment_reads_back f (fits_of_length hlength)).1.sequence

end Fragment

/-- Whether a slot holds a media segment under a number that starts at the tick of the frame it opens with. -/
structure Slot.Opens (line : List (Nat × Bytes)) (slot : Slot) (number : Nat) : Prop where
  sequence : slot.sequence = number
  fragment : ∃ f : Fragment, slot.Holds f ∧ ∃ data ∈ f.datas.head?, (slot.timestamp, data) ∈ line

/-- The slots filled so far are numbered from one on, the open fragment gets the number after the last of them, and it
starts at the tick of its first frame. -/
structure Numbered (line : List (Nat × Bytes)) (placed : List Slot) (f : OpenFragment) (number : Nat) : Prop where
  next : number = placed.length + 1
  start : ∀ data ∈ f.datas.head?, (f.start, data) ∈ line
  slots : ∀ i (slot : Slot), placed[i]? = some slot → slot.Opens line (i + 1)

namespace Numbered

variable {kind : Kind} {line line' : List (Nat × Bytes)} {placed : List Slot} {f g : OpenFragment} {number : Nat}

theorem retimed (h : Numbered line placed f number) (hg : Retimed kind line f g) : Numbered line placed g number := by
  cases hg with
  | same => exact h
  | last duration => exact ⟨h.next, by rw [OpenFragment.datas_setLast, OpenFragment.start_setLast]; exact h.start, h.slots⟩

theorem bridge (h : Numbered line placed f number) {next : Nat} (hg : f.bridge? next = some g) :
    Numbered line placed g number := by
  have hdatas := OpenFragment.datas_bridge? hg
  obtain ⟨before, last, gap, -, -, rfl⟩ := OpenFragment.exists_of_bridge? hg
  exact ⟨h.next, by rw [hdatas]; exact h.start, h.slots⟩

theorem push (h : Numbered line placed f number) {start : Nat} {sample : Sample} (hs : (start, sample.data) ∈ line) :
    Numbered line placed (f.push start sample) number := by
  refine ⟨h.next, fun data hd => ?_, h.slots⟩
  rw [OpenFragment.datas_push] at hd
  unfold OpenFragment.push
  split
  · rename_i he
    rw [OpenFragment.datas_of_isEmpty he] at hd
    cases hd
    exact hs
  · rename_i hn
    refine h.start data ?_
    rwa [List.head?_append_of_ne_nil] at hd
    rw [OpenFragment.isEmpty_eq_datas] at hn
    simpa using hn

theorem lose (h : Numbered line placed f number) : Numbered line placed .empty number := ⟨h.next, nofun, h.slots⟩

/-- A fragment that is filed uses up its number. -/
theorem file (h : Numbered line placed f number) (hn : f.isEmpty = false) {slot : Slot} (hf : slot.Files number f) :
    Numbered line (placed ++ [slot]) .empty (number + 1) := by
  refine ⟨by rw [h.next, List.length_append, List.length_singleton], nofun, fun i later hi => ?_⟩
  -- a slot of before, the one filled now, or none
  rcases Nat.lt_trichotomy i placed.length with hlt | rfl | hgt
  · rw [List.getElem?_append_left hlt] at hi
    exact h.slots i later hi
  · rw [List.getElem?_concat_length] at hi
    cases hi
    obtain ⟨first, hfirst⟩ : ∃ first, f.datas.head? = some first := by
      rw [OpenFragment.isEmpty_eq_datas] at hn
      cases hd : f.datas with
      | nil =>
        rw [hd] at hn
        cases hn
      | cons first rest => exact ⟨first, rfl⟩
    refine ⟨hf.sequence.trans h.next, ⟨soleTrack, .ofNat number, .ofNat f.start, f.samples⟩, ⟨hf.data, ?_, ?_⟩,
      first, hfirst, ?_⟩
    · rw [hf.sequence]
    · rw [hf.timestamp]
    · rw [hf.timestamp]
      exact h.start first hfirst
  · have hlong : (placed ++ [slot]).length ≤ i := by
      rw [List.length_append, List.length_singleton]
      omega
    rw [List.getElem?_eq_none hlong] at hi
    cases hi

theorem mono (h : Numbered line placed f number) (hl : line ⊆ line') : Numbered line' placed f number := by
  refine ⟨h.next, fun data hd => hl (h.start data hd), fun i slot hi => ?_⟩
  obtain ⟨hsequence, g, hholds, data, hd, hm⟩ := h.slots i slot hi
  exact ⟨hsequence, g, hholds, data, hd, hl hm⟩

end Numbered

/-- **Every step keeps the numbers in order.** -/
theorem numbered_invariant (kind : Kind) : StepInvariant kind Numbered :=
  .of_cases Numbered.mono (fun h hf hs => (h.retimed hf).push hs) (fun h hb => h.bridge hb) Numbered.lose
    fun h hf hn hs => (h.retimed hf).file hn hs

namespace Session

/-- **The n-th slot that is ever filled has number n**, in every run of a segmenter of either kind, whatever fragments were
given up or lost between and whichever slots the calls were made with: beside the bytes and in them, together with the
tick where the fragment starts, that of the frame it opens with. -/
theorem numbered_without_gap (kind : Kind) (plan : SegmenterPlan) (capacity : Nat) (calls : List (Slot × Call))
    (h : ((start kind plan capacity).filings calls).length < 2 ^ 32 - 1) :
    let s := start kind plan capacity
    ∀ i slot, (s.filings calls)[i]? = some slot →
      slot.sequence = i + 1 ∧ SaysNumber slot.data (i + 1) ∧ StartsAt slot.data slot.timestamp ∧
      ∃ f : Fragment, slot.data = f.encode ∧ ∃ data ∈ f.datas.head?, (slot.timestamp, data) ∈ (s.runAmong calls).line := by
  intro s i slot hi
  have hall : Numbered _ _ _ _ := (numbered_invariant kind).run_start ⟨rfl, nofun, nofun⟩ plan capacity calls
  obtain ⟨hsequence, f, hholds, data, hdata, hline⟩ := hall.slots i slot hi
  have hfit : i + 1 < 2 ^ 32 := by
    have hlt : i < ((start kind plan capacity).filings calls).length := (List.getElem?_eq_some_iff.1 hi).1
    omega
  refine ⟨hsequence, ?_, ?_, f, hholds.data, data, hdata, hline⟩
  · rw [hholds.data]
    exact Fragment.saysNumber_encode (by rw [hholds.sequence, hsequence]) hfit
  · rw [hholds.data]
    exact Fragment.startsAt_encode hholds.decodeTime

/-- Pictures, each taken, configured and appended with one slot. -/
def picturesInto (slot : Slot) (pictures : List (Nat × Bool)) : List (Slot × Call) :=
  pictures.flatMap fun (ms, idr) => [(slot, .manage (pictureAt ms idr)), (slot, .configure), (slot, .append)]

/-- The first fragment is too large for its slot and the second is flushed; the third fills a slot when the next IDR
picture comes and the fourth when the track is finished. -/
def lossyCalls : List (Slot × Call) :=
  picturesInto (.empty 100) [(0, true), (400, false), (1200, true), (1600, false)] ++ [(.empty 100, .flush)] ++
  picturesInto (.empty 4096) [(2000, true), (2600, false), (3200, true), (3800, false)] ++ [(.empty 4096, .finish)]

theorem numbered_without_gap_lossy :
    let s := start .video unevenPlan 0
    let slot := (s.runAmong lossyCalls).slot
    (s.filings lossyCalls).length < 2 ^ 32 - 1 ∧ (s.filings lossyCalls)[1]? = some slot ∧
    slot.sequence = 2 ∧ SaysNumber slot.data 2 ∧ StartsAt slot.data slot.timestamp ∧
    ∃ f : Fragment, slot.data = f.encode ∧
      ∃ data ∈ f.datas.head?, (slot.timestamp, data) ∈ (s.runAmong lossyCalls).line := by
  have h : ((start .video unevenPlan 0).filings lossyCalls).length < 2 ^ 32 - 1 := by decide +kernel
  have hslot : ((start .video unevenPlan 0).filings lossyCalls)[1]? =
      some ((start .video unevenPlan 0).runAmong lossyCalls).slot := by decide +kernel
  exact ⟨h, hslot, numbered_without_gap .video unevenPlan 0 lossyCalls h 1 _ hslot⟩

/-- Two fragments were placed. -/
example : ((start .video unevenPlan 0).filings lossyCalls).map (fun slot => (slot.sequence, slot.timestamp)) =
    [(1, 2000), (2, 3200)] := by decide +kernel

end Session

end Packager

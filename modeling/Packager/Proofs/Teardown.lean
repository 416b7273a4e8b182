import Packager.Proofs.Listing
import Packager.Proofs.VideoStart
/-!
# Proofs.Teardown — closing what tracks still have

A track that is closed hands over at most two segments, in this order: the one in its slot and the one that its open
fragment makes (`Channel.held?`, `Channel.trailing?`).  Each is written, and announced when that worked
(`Parcel.entries`).  A drain of the audio tracks does this for every one of them and leaves video alone, and the removal
of a track does it before the track is taken off the list (`Presentation.closes_tracks`).
-/
namespace Packager

/-! ## Parcels -/

/-- A segment that is handed over: the content of its file, and what it is announced under. -/
structure Parcel where
  content : Bytes
  timestamp : Nat
  duration : Nat
  deriving DecidableEq, Repr

def Slot.parcel (s : Slot) : Parcel := ⟨s.data, s.timestamp, s.duration⟩

/-- The number of segments that were announced. -/
def Journal.segments (j : Journal) : Nat := j.countP Effect.isSegment

namespace Parcel

variable (settings : Settings) (id : TrackId) (kind : Kind)

def path (p : Parcel) : Path :=
  Naming.segmentPath settings.folder settings.baseName id p.timestamp (Naming.fileExtension kind)

/-- What a parcel adds to the journal, by how the write of its file ends. -/
def entries (p : Parcel) : Except IoError Unit → Journal
  | .error e => [.wrote (p.path settings id kind) p.content (.error e)]
  | .ok () =>
    [.announced (.segment (Naming.adaptationSet kind) (toString id) p.timestamp p.duration),
      .wrote (p.path settings id kind) p.content (.ok ())]

/-- The journal after a parcel, if there is one, was handed over. -/
def hand (w : World) : Option Parcel → Journal → Journal
  | none, j => j
  | some p, j => p.entries settings id kind (w.writeFile j (p.path settings id kind) p.content) ++ j

theorem suffix_hand (w : World) (parcel : Option Parcel) (j : Journal) : j <:+ hand settings id kind w parcel j := by
  cases parcel with
  | none => exact List.suffix_rfl
  | some p => exact List.suffix_append _ j

end Parcel

/-! ## One track -/

namespace Assembly

/-- The segment that the open fragment is closed into, if one is open and it fits into so many bytes. -/
def parcel? (a : Assembly) (capacity : Nat) : Option Parcel :=
  if a.fragment.isEmpty ∨ capacity < a.segment.encode.length then none
  else some ⟨a.segment.encode, a.fragment.start, a.fragment.duration⟩

theorem parcel_close (a : Assembly) (slot : Slot) :
    (if (a.close slot).result matches .ok true then some (a.close slot).slot.parcel else none) =
      a.parcel? slot.capacity := by
  unfold close parcel?
  cases he : a.fragment.isEmpty with
  | true => rfl
  | false =>
    have hload := slot.load_eq_error_iff a.segment.encode a.nextSequence a.fragment.start a.fragment.duration
    rcases slot.load_cases a.segment.encode a.nextSequence a.fragment.start a.fragment.duration with
      he | ⟨t, he, hdata, -, -, hstart, hduration⟩
    · simp [he, hload.1 he]
    · have hshort : ¬slot.capacity < a.segment.encode.length := fun hlong => by
        rw [hload.2 hlong] at he
        cases he
      have hparcel : t.parcel = ⟨a.segment.encode, a.fragment.start, a.fragment.duration⟩ := by
        rw [← hdata, ← hstart, ← hduration]
        rfl
      simp [he, hshort, hparcel]

end Assembly

namespace Channel

/-- The finished segment that awaits publication. -/
def held? (c : Channel) : Option Parcel := if c.isHolding then some c.slot.parcel else none

/-- The segment that the open fragment makes with the frames that wait.  One that does not fit into the slot is lost. -/
def trailing? (c : Channel) : Option Parcel := c.segmenter.absorb.assembly.parcel? c.slot.capacity

/-- Whether nothing is left in a channel: no segment, no open fragment and no frame that waits for it. -/
structure Emptied (c : Channel) : Prop where
  slot : c.slot.isEmpty = true
  fragment : c.segmenter.assembly.fragment.isEmpty = true
  pending : c.segmenter.assembly.pending = none

variable (w : World) (settings : Settings) (id : TrackId)

/-- The journal after all that a track has was handed over: first what awaits publication, then the open fragment. -/
def handOver (c : Channel) (j : Journal) : Journal :=
  Parcel.hand settings id c.kind w c.trailing? (Parcel.hand settings id c.kind w c.held? j)

/-- Publishing one segment if there is one hands its parcel over, and counts it when it is announced. -/
theorem publishIf_hands (b : Bool) (c : Channel) (j : Journal) :
    let out := c.publishIf w settings id b j
    out.1.2 = (if b then { c with slot := c.slot.clear } else c) ∧
      out.2 = Parcel.hand settings id c.kind w (if b then some c.slot.parcel else none) j ∧
      out.2.segments = j.segments + out.1.1 := by
  cases b with
  | false => exact ⟨rfl, rfl, rfl⟩
  | true =>
    have hhand : Parcel.hand settings id c.kind w (some c.slot.parcel) j = c.slot.parcel.entries settings id c.kind
        (w.writeFile j (c.segmentPath settings id) c.slot.data) ++ j := rfl
    rw [if_pos rfl, if_pos rfl, hhand]
    unfold publishIf drain.publishOne publish Slot.writeTo
    cases hw : w.writeFile j (c.segmentPath settings id) c.slot.data with
    | error e =>
      simp only [if_true, StateM.bind_apply, World.writeFile_apply, hw]
      exact ⟨rfl, rfl, rfl⟩
    | ok =>
      simp only [if_true, StateM.bind_apply, World.writeFile_apply, hw]
      exact ⟨rfl, rfl, List.countP_cons_of_pos rfl⟩

/-- **Finishing over a free slot** makes the trailing segment, if there is one, and leaves no frame waiting. -/
theorem finish_trailing {c : Channel} (hfree : c.slot.isEmpty = true) :
    (if c.finish.1 then some c.finish.2.slot.parcel else none) = c.trailing? ∧
      c.finish.2.segmenter.assembly.pending = none := by
  rcases c.segmenter.finish_cases c.slot with ⟨hn, -⟩ | ⟨-, hresult, hslot, phase, hstate⟩
  · rw [hfree] at hn
    cases hn
  · obtain ⟨-, g, n, phase', habsorb⟩ := c.segmenter.absorb_moved
    have hpending : c.segmenter.absorb.assembly.pending = none := by rw [habsorb]
    obtain ⟨g', n', phase'', hclose, -⟩ := c.segmenter.absorb.assembly.close_state c.slot
    refine ⟨?_, ?_⟩
    · show (if (c.segmenter.finish c.slot).result matches .ok true then some (c.segmenter.finish c.slot).slot.parcel
        else none) = _
      rw [hresult, hslot]
      exact c.segmenter.absorb.assembly.parcel_close c.slot
    · show (c.segmenter.finish c.slot).state.assembly.pending = none
      rw [hstate, hclose]
      exact hpending

/-- **Draining a track** hands over all that it has and leaves nothing. -/
theorem drain_hands (c : Channel) (j : Journal) :
    let out := c.drain w.outlet settings id j
    (out.1.2.kind = c.kind ∧ out.1.2.Emptied) ∧
      out.2 = c.handOver w settings id j ∧ out.2.segments = j.segments + out.1.1 := by
  obtain ⟨hcloses, hslot, hfragment⟩ := c.drain_closes w settings id j
  have hfree := c.freed_isEmpty w settings id j
  obtain ⟨hstate, hheld, hcount⟩ := publishIf_hands w settings id c.isHolding c j
  rw [drain_apply] at hcloses hslot hfragment ⊢
  dsimp only at hcloses hslot hfragment ⊢
  generalize c.publishIf w settings id c.isHolding j = held at *
  have hsame : held.1.2.trailing? = c.trailing? ∧ held.1.2.finish.2.kind = c.kind := by
    refine ⟨?_, (held.1.2.segmenter.finish_keeps held.1.2.slot).1.trans ?_⟩ <;> rw [hstate] <;> cases c.isHolding <;> rfl
  obtain ⟨hlast, hpending⟩ := finish_trailing hfree
  obtain ⟨hstate', hhand, hcount'⟩ := publishIf_hands w settings id held.1.2.finish.1 held.1.2.finish.2 held.2
  refine ⟨⟨hcloses.kind, hslot, hfragment, ?_⟩, ?_, ?_⟩
  · rw [hstate']
    cases held.1.2.finish.1 <;> exact hpending
  · rw [hhand, hlast, hsame.1, hsame.2, hheld]
    rfl
  · rw [hcount', hcount, Nat.add_assoc]

theorem suffix_handOver (c : Channel) (j : Journal) : j <:+ c.handOver w settings id j :=
  (Parcel.suffix_hand settings id c.kind w c.held? j).trans (Parcel.suffix_hand settings id c.kind w c.trailing? _)

end Channel

/-! ## A publisher -/

namespace Publisher

variable {w : World} {p q : Publisher} {j : Journal}

def audioEntries (p : Publisher) : List (TrackId × Channel) := p.channels.entries.filter (·.2.kind = .audio)

/-- How far a drain of the audio tracks has come when it has made `q` of `p`. -/
structure Draining (p : Publisher) (rest : List (TrackId × Channel)) (q : Publisher) : Prop where
  settings : q.settings = p.settings
  gate : q.gate = p.gate.forceAudioOnly
  current : Current rest q
  audio : ∀ e ∈ rest, e.2.kind = .audio
  kinds : ∀ id, (q.channels.find? id).map Channel.kind = (p.channels.find? id).map Channel.kind
  video : ∀ id c, c.kind = .video → (q.channels.find? id = some c ↔ p.channels.find? id = some c)
  emptied : ∀ id c, q.channels.find? id = some c → c.kind = .audio → id ∈ rest.map Prod.fst ∨ c.Emptied

theorem Draining.step {id : TrackId} {c d : Channel} {rest : List (TrackId × Channel)}
    (h : p.Draining ((id, c) :: rest) q) (hkind : d.kind = c.kind) (hd : d.Emptied) :
    p.Draining rest (q.setChannel id d) := by
  have hc : q.channels.find? id = some c := h.current.present (id, c) List.mem_cons_self
  have haudio : c.kind = .audio := h.audio (id, c) List.mem_cons_self
  refine ⟨h.settings, h.gate, h.current.setChannel d, fun e he => h.audio e (List.mem_cons_of_mem _ he), fun id' => ?_,
    fun id' c' hv => ?_, fun id' c' hf ha => ?_⟩
  · rw [find?_setChannel, ← h.kinds id']
    by_cases he : id = id'
    · rw [if_pos he, ← he, hc, Option.map_some, Option.map_some, hkind]
    · rw [if_neg he]
  · rw [find?_setChannel, ← h.video id' c' hv]
    by_cases he : id = id'
    · -- the track is an audio track before and after
      rw [if_pos he, ← he, hc, Option.some.injEq, Option.some.injEq]
      constructor <;> rintro rfl
      · rw [hkind, haudio] at hv
        cases hv
      · rw [haudio] at hv
        cases hv
    · rw [if_neg he]
  · obtain ⟨-, rfl⟩ | ⟨hne, hf⟩ := find?_setChannel_cases hf
    · exact .inr hd
    · refine (h.emptied id' c' hf ha).imp (fun hm => ?_) fun h => h
      exact (List.mem_cons.1 hm).resolve_left (Ne.symm hne)

theorem draining_start (hsorted : p.channels.Sorted) :
    p.Draining p.audioEntries { p with gate := p.gate.forceAudioOnly } := by
  have hcurrent := (current_entries hsorted).filter (·.2.kind = .audio)
  refine ⟨rfl, rfl, ⟨hcurrent.present, hcurrent.nodup⟩, fun e he => ?_, fun _ => rfl, fun _ _ _ => Iff.rfl,
    fun id c hf ha => .inl ?_⟩
  · simpa using (List.mem_filter.1 he).2
  · have hentry : (id, c) ∈ p.channels.entries := (SortedMap.mem_entries hsorted).2 hf
    exact List.mem_map_of_mem (List.mem_filter.2 ⟨hentry, by simpa using ha⟩)

/-- The journal after all that these tracks have was handed over. -/
def handAll (w : World) (settings : Settings) (entries : List (TrackId × Channel)) (j : Journal) : Journal :=
  entries.foldl (fun k e => e.2.handOver w settings e.1 k) j

theorem suffix_handAll (w : World) (settings : Settings) : ∀ (entries : List (TrackId × Channel)) (j : Journal),
    j <:+ handAll w settings entries j
  | [], _ => List.suffix_rfl
  | e :: entries, j =>
    (e.2.suffix_handOver w settings e.1 j).trans (suffix_handAll w settings entries (e.2.handOver w settings e.1 j))

/-- **A drain of the audio tracks** hands over what each of them has, counts what it announces, and then writes the manifest
if that was anything. -/
theorem drainAudio_hands (hsorted : p.channels.Sorted) :
    let out := p.drainAudio w.outlet j
    p.Draining [] out.1.2 ∧ ∃ new, handAll w p.settings p.audioEntries j = new ++ j ∧
      ((new.segments = 0 ∧ out.1.1 = .ok new.segments ∧ out.2 = new ++ j) ∨
        (0 < new.segments ∧ ∃ result, out.1.1 = result.map (fun _ => new.segments) ∧
          out.2 = .manifest result :: (new ++ j))) := by
  let inv : List (TrackId × Channel) → Nat × Publisher → Journal → Prop := fun rest acc k =>
    p.Draining rest acc.2 ∧ handAll w p.settings rest k = handAll w p.settings p.audioEntries j ∧
      k.segments = j.segments + acc.1
  obtain ⟨hdone, hhanded, hcount⟩ := StateM.foldlM_invariant (f := drainAudio.drainOne w.outlet) inv (by
    rintro ⟨id, c⟩ rest ⟨count, q⟩ k ⟨hdraining, hhanded, hcount⟩
    obtain ⟨⟨hkind, hemptied⟩, hover, hmore⟩ := c.drain_hands w q.settings id k
    refine ⟨hdraining.step hkind hemptied, ?_, ?_⟩
    · rw [← hhanded]
      exact congrArg (handAll w p.settings rest) (hover.trans (by rw [hdraining.settings]))
    · exact hmore.trans (by rw [hcount, Nat.add_assoc]; rfl)) p.audioEntries
    (0, { p with gate := p.gate.forceAudioOnly }) j ⟨draining_start hsorted, rfl, rfl⟩
  obtain ⟨new, hnew⟩ := suffix_handAll w p.settings p.audioEntries j
  rw [← hnew] at hhanded
  refine ⟨by rwa [drainAudio_publisher], new, hnew.symm, ?_⟩
  rw [drainAudio_eq, ← audioEntries]
  dsimp only
  generalize List.foldlM (drainAudio.drainOne w.outlet) _ _ j = out at hhanded hcount ⊢
  have hsegments : Journal.segments new = out.1.1 := by
    have hk : out.2 = new ++ j := hhanded
    rw [hk, Journal.segments, List.countP_append] at hcount
    exact Nat.add_right_cancel (hcount.trans (Nat.add_comm _ _))
  rw [hsegments, ← hhanded]
  by_cases hwritten : out.1.1 = 0
  · rw [if_pos hwritten, hwritten]
    exact .inl ⟨rfl, rfl, rfl⟩
  · rw [if_neg hwritten]
    exact .inr ⟨Nat.pos_of_ne_zero hwritten, w.writeManifest out.2, rfl, rfl⟩

theorem removeTrack_hands {id : TrackId} {c : Channel} (hc : p.channels.find? id = some c) :
    ∃ result, p.removeTrack w.outlet id j =
      ((.ok (), { p with channels := p.channels.erase id, gate := p.gate.removeTrack id }),
        .manifest result :: .announced (.removed c.adaptationSet (toString id)) :: c.handOver w p.settings id j) := by
  unfold removeTrack
  simp only [hc, StateM.bind_apply, World.announce_apply, World.writeManifest_apply]
  rw [(c.drain_hands w p.settings id j).2.1]
  exact ⟨_, rfl⟩

end Publisher

namespace Presentation

/-- **What closing tracks comes to.**  After every run, a drain of the audio tracks hands over what each of them has and
leaves it empty; video tracks are as they were, and the gate is in audio-only mode.  The answer is the number of
announced segments, unless the manifest that is written after them fails.  The removal of a track hands over the segment
that awaits publication, then the open fragment; each file that was written is announced.  Then the track is taken off
the list and the manifest is written, and every other track is as it was. -/
theorem closes_tracks (w : World) (settings : Settings) (ops : List Operation) :
    let s := (start settings).run w ops
    let p := s.publisher
    (let out := p.drainAudio w.outlet s.journal
      let q := out.1.2
      (q.gate = p.gate.forceAudioOnly ∧ q.gate.audioOnly = true) ∧
      (∀ id, (q.channels.find? id).map Channel.kind = (p.channels.find? id).map Channel.kind) ∧
      (∀ id c, c.kind = .video → (q.channels.find? id = some c ↔ p.channels.find? id = some c)) ∧
      (∀ id c, q.channels.find? id = some c → c.kind = .audio → c.slot.isEmpty = true ∧
        c.segmenter.assembly.fragment.isEmpty = true ∧ c.segmenter.assembly.pending = none) ∧
      ∃ new, Publisher.handAll w p.settings p.audioEntries s.journal = new ++ s.journal ∧
        ((new.segments = 0 ∧ out.1.1 = .ok new.segments ∧ out.2 = new ++ s.journal) ∨
          (0 < new.segments ∧ ∃ result, out.1.1 = result.map (fun _ => new.segments) ∧
            out.2 = .manifest result :: (new ++ s.journal)))) ∧
    ∀ id c, p.channels.find? id = some c →
      let out := p.removeTrack w.outlet id s.journal
      out.1.1 = .ok () ∧
      (∃ result, out.2 = .manifest result :: .announced (.removed c.adaptationSet (toString id)) ::
        Parcel.hand p.settings id c.kind w c.trailing? (Parcel.hand p.settings id c.kind w c.held? s.journal)) ∧
      out.1.2.channels.find? id = none ∧ ∀ id', id' ≠ id → out.1.2.channels.find? id' = p.channels.find? id' := by
  intro s p
  have hsorted : p.channels.Sorted := (run_sound w settings ops).sorted
  refine ⟨?_, fun id c hc => ?_⟩
  · obtain ⟨hdone, hout⟩ := Publisher.drainAudio_hands (w := w) (j := s.journal) hsorted
    refine ⟨⟨hdone.gate, congrArg Gate.audioOnly hdone.gate⟩, hdone.kinds, hdone.video, fun id c hc ha => ?_, hout⟩
    obtain ⟨hslot, hfragment, hpending⟩ := (hdone.emptied id c hc ha).resolve_left List.not_mem_nil
    exact ⟨hslot, hfragment, hpending⟩
  · obtain ⟨result, hout⟩ := Publisher.removeTrack_hands (w := w) (j := s.journal) hc
    rw [hout]
    refine ⟨rfl, ⟨result, rfl⟩, ?_, fun id' hne => ?_⟩
    · rw [SortedMap.find?_erase, if_pos rfl]
    · rw [SortedMap.find?_erase, if_neg (Ne.symm hne)]

/-- Two seconds of audio that follow the first two. -/
def twoMoreSeconds : Frame := .audio ⟨3000000000, 48000, 2, 96000, [8]⟩

/-- An audio track that waits for video with two seconds in its slot and two in the open fragment is removed. -/
theorem closes_tracks_heldAudio :
    let s := (start .default).run .obliging
      [.addTrack 1 .video, .addTrack 2 .audio, .cycle [(2, twoSeconds)], .cycle [(2, twoMoreSeconds)]]
    ∃ c, s.publisher.channels.find? 2 = some c ∧ c.held?.isSome ∧ c.trailing?.isSome ∧
      ∃ result, (s.publisher.removeTrack World.obliging.outlet 2 s.journal).2 =
        .manifest result :: .announced (.removed c.adaptationSet (toString (2 : TrackId))) ::
          Parcel.hand s.publisher.settings 2 c.kind .obliging c.trailing?
            (Parcel.hand s.publisher.settings 2 c.kind .obliging c.held? s.journal) := by
  have hall := closes_tracks .obliging .default
    [.addTrack 1 .video, .addTrack 2 .audio, .cycle [(2, twoSeconds)], .cycle [(2, twoMoreSeconds)]]
  intro s
  have hstate : (s.publisher.channels.find? 2).any (fun c => c.held?.isSome && c.trailing?.isSome) = true := by
    decide +kernel
  dsimp only at hall
  generalize hs : (start .default).run .obliging _ = t at hall
  obtain rfl : s = t := hs
  clear_value s
  obtain ⟨c, hc, h⟩ := (Option.any_eq_true _ _).1 hstate
  obtain ⟨hheld, htrailing⟩ : c.held?.isSome = true ∧ c.trailing?.isSome = true := by simpa using h
  exact ⟨c, hc, hheld, htrailing, (hall.2 2 c hc).2.1⟩

end Presentation

end Packager

import Mathlib.Data.List.Induction
import Packager.Proofs.Teardown
import Packager.Proofs.Turns
/-!
# Proofs.HeldAudio — only audio waits in a slot, and only for video

Between operations a slot with a segment is that of an audio track, and the publisher is not in audio-only mode
(`WaitsForVideo`): what a cycle finishes it settles, and a drain empties every slot.  So a video track takes each frame
with a free slot, and closing a track never meets a segment that was not published (`only_audio_waits`).
-/
namespace Packager

namespace Gate

@[simp] theorem audioOnly_addTrack (g : Gate) (track : TrackId) (kind : Kind) :
    (g.addTrack track kind).audioOnly = g.audioOnly := by
  cases kind <;> rfl

@[simp] theorem audioOnly_judge (g : Gate) (window : Window) : (g.judge window).2.audioOnly = g.audioOnly := by
  rw [judge_snd]
  split
  · unfold start
    split <;> rfl
  · rfl

end Gate

/-! ## Closing a track -/

/-- **A segmenter finishes into a free slot** without breaking a rule; only the size of the slot can be in the way. -/
theorem Segmenter.finish_ne_violation (s : Segmenter) {slot : Slot} (h : slot.isEmpty = true) (violation : Violation) :
    (s.finish slot).result ≠ .error (.violation violation) := by
  intro hf
  rcases s.finish_cases slot with ⟨hn, -⟩ | ⟨-, hresult, -⟩
  · rw [h] at hn
    cases hn
  · rw [hresult] at hf
    rcases s.absorb.assembly.close_cases slot with ⟨-, hc⟩ | ⟨-, ⟨length, capacity, ho⟩, -⟩ | ⟨-, ht, -⟩
    · rw [hc] at hf
      cases hf
    · rw [ho] at hf
      cases hf
    · rw [ht] at hf
      cases hf

/-! ## Taking a frame -/

namespace Channel

variable (w : World) (settings : Settings) (id : TrackId)

/-- **What a frame finds in the slot** is what the slot had before: the frame is appended to a segmenter over it, or the
slot is left alone. -/
theorem feed_slot (c : Channel) (frame : Frame) (j : Journal) :
    ∃ g, (c.feed w.outlet settings id frame j).1.channel = ⟨g, c.slot⟩ ∨
      (c.feed w.outlet settings id frame j).1.channel = (append ⟨g, c.slot⟩).1 := by
  have hcourse := feed_course w settings id c frame j
  generalize c.feed w.outlet settings id frame j = out at hcourse ⊢
  cases hcourse with
  | refused => exact ⟨c.segmenter, .inl rfl⟩
  | waiting => exact ⟨_, .inl rfl⟩
  | rejected => exact ⟨_, .inl rfl⟩
  | appended => exact ⟨_, .inr rfl⟩
  | failed => exact ⟨_, .inl rfl⟩
  | made => exact ⟨_, .inr rfl⟩

end Channel

/-! ## What waits -/

namespace Publisher

variable {w : World} {p q : Publisher} {j : Journal}

/-- Whether what is in a slot is audio that waits for video. -/
def WaitsForVideo (p : Publisher) : Prop :=
  ∀ id c, p.channels.find? id = some c → c.isHolding = true → c.kind = .audio ∧ p.gate.audioOnly = false

theorem WaitsForVideo.isEmpty_of_video (h : p.WaitsForVideo) {id : TrackId} {c : Channel}
    (hc : p.channels.find? id = some c) (hv : c.kind = .video) : c.slot.isEmpty = true := by
  cases hs : c.slot.isEmpty with
  | true => rfl
  | false =>
    obtain ⟨ha, -⟩ := h id c hc (by simp [Channel.isHolding, hs])
    rw [hv] at ha
    cases ha

theorem WaitsForVideo.setChannel (h : p.WaitsForVideo) {id : TrackId} {d : Channel}
    (hd : d.isHolding = true → d.kind = .audio ∧ p.gate.audioOnly = false) : (p.setChannel id d).WaitsForVideo := by
  intro id' c hf hh
  obtain ⟨-, rfl⟩ | ⟨-, hf⟩ := find?_setChannel_cases hf
  · exact hd hh
  · exact h id' c hf hh

/-- The gate holds audio only, and none in audio-only mode. -/
theorem waits_of_hold {id : TrackId} {c : Channel} {window : Window} (hw : p.window? id c = some window)
    (hv : (p.gate.judge window).1 = .hold) : c.kind = .audio ∧ p.gate.audioOnly = false := by
  obtain ⟨-, hkind⟩ := window?_eq_some hw
  cases hk : c.kind with
  | video =>
    rw [Gate.judge_of_video (hkind.trans hk)] at hv
    cases hv
  | audio => exact ⟨rfl, ((p.gate.judge_eq_hold (hkind.trans hk)).1 hv).1⟩

/-- While finished segments are released: a track that holds one has its turn to come, or the gate held it. -/
structure Settling (rest : List (TrackId × Channel)) (p : Publisher) : Prop where
  current : Current rest p
  window : ∀ e ∈ rest, ∃ window, p.window? e.1 e.2 = some window
  waits : ∀ id c, p.channels.find? id = some c → c.isHolding = true →
    id ∈ rest.map Prod.fst ∨ (c.kind = .audio ∧ p.gate.audioOnly = false)

theorem Settling.step {id : TrackId} {c : Channel} {rest : List (TrackId × Channel)} (h : p.Settling ((id, c) :: rest))
    (report : CycleReport) (k : Journal) : (release w.outlet (report, p) (id, c) k).1.2.Settling rest := by
  obtain ⟨window, hw⟩ := h.window (id, c) List.mem_cons_self
  have hc : p.channels.find? id = some c := h.current.present (id, c) List.mem_cons_self
  have hrest : ∀ e ∈ rest, ∃ window, p.window? e.1 e.2 = some window := fun e he =>
    h.window e (List.mem_cons_of_mem _ he)
  have hquiet : (p.gate.judge window).2.audioOnly = p.gate.audioOnly := p.gate.audioOnly_judge window
  rw [release_state hw]
  -- a held track has had its turn and waits by the gate's word; any other has its slot freed
  by_cases hv : (p.gate.judge window).1 = .hold
  · rw [if_pos hv]
    refine ⟨⟨h.current.tail.present, h.current.tail.nodup⟩, hrest, fun id' d hd hh => ?_⟩
    rcases h.waits id' d hd hh with hm | hdone
    · rcases List.mem_cons.1 hm with rfl | hm
      · cases hc.symm.trans hd
        exact .inr (hquiet ▸ waits_of_hold hw hv)
      · exact .inl hm
    · exact .inr (hquiet ▸ hdone)
  · rw [if_neg hv]
    have hnext := h.current.setChannel { c with slot := c.slot.clear }
    refine ⟨⟨hnext.present, hnext.nodup⟩, hrest, fun id' d hd hh => ?_⟩
    obtain ⟨-, rfl⟩ | ⟨hne, hd⟩ := find?_setChannel_cases hd
    · cases hh
    · rcases h.waits id' d hd hh with hm | hdone
      · exact .inl ((List.mem_cons.1 hm).resolve_left (Ne.symm hne))
      · exact .inr (hquiet ▸ hdone)

/-- **Releasing what is ready** leaves only audio that the gate holds. -/
theorem releaseAll_waits (report : CycleReport) (hsorted : p.channels.Sorted)
    (hwindow : ∀ id c, p.channels.find? id = some c → c.isHolding = true → ∃ window, p.window? id c = some window) :
    (p.ready.foldlM (release w.outlet) (report, p) j).1.2.WaitsForVideo := by
  obtain ⟨hcurrent, hholding⟩ := current_ready hsorted
  have hstart : p.Settling p.ready :=
    ⟨hcurrent, fun e he => hwindow e.1 e.2 (hcurrent.present e he) (hholding e he),
      fun id c hc hh => .inl (List.mem_map_of_mem ((mem_ready hsorted).2 ⟨hc, hh⟩))⟩
  have hend := StateM.foldlM_invariant (f := release w.outlet) (fun rest acc _ => acc.2.Settling rest)
    (fun _ _ acc k h => h.step acc.1 k) p.ready (report, p) j hstart
  exact fun id c hc hh => (hend.waits id c hc hh).resolve_left List.not_mem_nil

theorem WaitsForVideo.fixOrigin (h : p.WaitsForVideo) (frames : List (TrackId × Frame)) :
    (p.fixOrigin frames).WaitsForVideo := by
  unfold Publisher.fixOrigin
  split
  · intro id c hf hh
    rw [SortedMap.find?_mapValues, Option.map_eq_some_iff] at hf
    obtain ⟨b, hb, rfl⟩ := hf
    exact h id b hb hh
  · exact h

theorem cycle_waits (frames : List (TrackId × Frame)) (h : p.Sound j) (hg : Presentation.Grounded ⟨p, j⟩) :
    (p.cycle w.outlet frames j).1.2.WaitsForVideo := by
  obtain ⟨hsound, hgrounded⟩ := intake_sound (w := w) frames h hg
  rw [(cycle_eq (w := w) (p := p) (j := j) frames).1]
  exact releaseAll_waits _ hsound.sorted fun id c hc hh => window?_of_holding hsound hgrounded hc hh

theorem removeTrack_waits (id : TrackId) (h : p.WaitsForVideo) : (p.removeTrack w.outlet id j).1.2.WaitsForVideo := by
  unfold removeTrack
  cases hc : p.channels.find? id with
  | none => exact h
  | some c => exact fun id' d hd hh => h id' d (find?_erase_cases hd).2 hh

theorem shutdown_waits (h : p.WaitsForVideo) : (p.shutdown w.outlet j).1.2.WaitsForVideo :=
  StateM.foldlM_invariant (f := fun q id => Prod.snd <$> q.removeTrack w.outlet id) (fun _ q _ => q.WaitsForVideo)
    (fun id _ _ _ h => removeTrack_waits id h) p.channels.keys p j h

/-- **A drain of the audio tracks** leaves every slot empty. -/
theorem drainAudio_waits (hsorted : p.channels.Sorted) (h : p.WaitsForVideo) :
    ∀ id c, (p.drainAudio w.outlet j).1.2.channels.find? id = some c → c.isHolding = false := by
  intro id c hc
  obtain ⟨hdone, -⟩ := drainAudio_hands (w := w) (j := j) hsorted
  have hfree : c.slot.isEmpty = true := by
    cases hk : c.kind with
    | audio => exact ((hdone.emptied id c hc hk).resolve_left List.not_mem_nil).slot
    | video => exact h.isEmpty_of_video ((hdone.video id c hk).1 hc) hk
  simp [Channel.isHolding, hfree]

theorem addTrack_waits (id : TrackId) (kind : Kind) (h : p.WaitsForVideo) :
    (p.addTrack w.outlet id kind j).1.2.WaitsForVideo := by
  unfold addTrack
  cases p.channels.contains id with
  | true => exact h
  | false =>
    have hset : ∀ c : Channel, c.slot.isEmpty = true →
        Publisher.WaitsForVideo { p.setChannel id c with gate := p.gate.addTrack id kind } := by
      intro c hs id' d hd hh
      obtain ⟨-, rfl⟩ | ⟨-, hd⟩ := find?_setChannel_cases hd
      · simp [Channel.isHolding, hs] at hh
      · rw [Gate.audioOnly_addTrack]
        exact h id' d hd hh
    simp only [Bool.false_eq_true, if_false, StateM.bind_apply, World.announce_apply]
    cases p.origin with
    | none => exact hset _ rfl
    | some origin => exact hset _ rfl

theorem setBitrate_waits (id : TrackId) (kilobits : Nat) (h : p.WaitsForVideo) :
    (p.setBitrate w.outlet id kilobits j).1.2.WaitsForVideo := by
  unfold setBitrate
  cases hc : p.channels.find? id with
  | none => exact h
  | some c => exact h.setChannel fun hh => h id c hc hh

theorem configure_waits (folder : Path) (baseName : String) (seconds : Nat) (h : p.WaitsForVideo) :
    (p.configure w.outlet folder baseName seconds j).1.2.WaitsForVideo := by
  unfold configure
  cases hc : p.checkConfigure baseName seconds with
  | error failure => exact h
  | ok =>
    simp only [StateM.bind_apply, World.createFolders_apply]
    cases w.createFolders j folder with
    | error e => exact h
    | ok => exact fun id c hf => absurd (hf.symm.trans (find?_of_checkConfigure hc id)) nofun

end Publisher

namespace Presentation

theorem apply_waits (w : World) {s : Presentation} (hsound : s.publisher.Sound s.journal) (hgrounded : s.Grounded)
    (h : s.publisher.WaitsForVideo) (op : Operation) : (s.apply w op).publisher.WaitsForVideo := by
  cases op with
  | addTrack id kind => exact Publisher.addTrack_waits id kind h
  | removeTrack id => exact Publisher.removeTrack_waits id h
  | cycle frames => exact Publisher.cycle_waits frames hsound hgrounded
  | setBitrate id kilobits => exact Publisher.setBitrate_waits id kilobits h
  | drainAudio =>
    intro id c hc hh
    have hfree : c.isHolding = false := Publisher.drainAudio_waits hsound.sorted h id c hc
    rw [hfree] at hh
    cases hh
  | configure folder baseName seconds => exact Publisher.configure_waits folder baseName seconds h
  | shutdown => exact Publisher.shutdown_waits h

theorem run_waits (w : World) (settings : Settings) (ops : List Operation) :
    ((start settings).run w ops).publisher.WaitsForVideo := by
  induction ops using List.reverseRecOn with
  | nil =>
    intro id c hf
    cases hf
  | append_singleton ops op ih =>
    rw [run, List.foldl_append]
    exact apply_waits w (run_sound w settings ops) (run_grounded w settings ops) ih op

/-- **Only audio waits, and only for video.**  After every run a slot with a segment is that of an audio track, and the
publisher is not in audio-only mode.  So, whenever a track is drained, the segmenter is asked to finish over a free slot
and does not call that a violation; and whenever a cycle takes a frame of a video track, the slot that the frame is
appended over is free. -/
theorem only_audio_waits (w : World) (settings : Settings) (ops : List Operation) :
    let s := (start settings).run w ops
    let p := s.publisher
    (∀ id c, p.channels.find? id = some c → c.isHolding = true → c.kind = .audio ∧ p.gate.audioOnly = false) ∧
    (∀ id c, p.channels.find? id = some c → ∀ j,
      let held := c.publishIf w p.settings id c.isHolding j
      let out := held.1.2.segmenter.finish held.1.2.slot
      let last := Channel.publishIf w p.settings id (out.result matches .ok true) ⟨out.state, out.slot⟩ held.2
      c.drain w.outlet p.settings id j = ((held.1.1 + last.1.1, last.1.2), last.2) ∧
        ∀ violation, out.result ≠ .error (.violation violation)) ∧
    ∀ frames id frame c, (frames.map Prod.fst).Nodup → (id, frame) ∈ frames →
      (p.fixOrigin frames).channels.find? id = some c → c.kind = .video →
      c.slot.isEmpty = true ∧ ∃ k g, let d := (c.feed w.outlet p.settings id frame k).1.channel
        (p.intake w.outlet frames s.journal).1.2.channels.find? id = some d ∧
          (d = ⟨g, c.slot⟩ ∨ d = (Channel.append ⟨g, c.slot⟩).1) := by
  intro s p
  have hwaits : p.WaitsForVideo := run_waits w settings ops
  refine ⟨hwaits, fun id c _ j => ⟨c.drain_apply w p.settings id j, ?_⟩, fun frames id frame c hnodup hm hc hv =>
    ⟨?_, ?_⟩⟩
  · exact Segmenter.finish_ne_violation _ (c.freed_isEmpty w p.settings id j)
  · exact (hwaits.fixOrigin frames).isEmpty_of_video hc hv
  · obtain ⟨k, -, hd, -⟩ := Publisher.intake_turn (w := w) (j := s.journal) hnodup hm hc
    obtain ⟨g, hslot⟩ := c.feed_slot w p.settings id frame k
    exact ⟨k, g, hd, hslot⟩

/-- Two seconds of audio wait for a video track; a picture of that track finds a free slot. -/
theorem only_audio_waits_twoSeconds :
    let s := (start .default).run .obliging [.addTrack 1 .video, .addTrack 2 .audio, .cycle [(2, twoSeconds)]]
    (∃ c, s.publisher.channels.find? 2 = some c ∧ c.isHolding = true ∧ c.kind = .audio ∧
      s.publisher.gate.audioOnly = false) ∧
    ∃ c, (s.publisher.fixOrigin [(1, onePicture)]).channels.find? 1 = some c ∧ c.slot.isEmpty = true := by
  have hall := only_audio_waits .obliging .default [.addTrack 1 .video, .addTrack 2 .audio, .cycle [(2, twoSeconds)]]
  intro s
  have hheld : (s.publisher.channels.find? 2).any (·.isHolding) = true := by decide +kernel
  have hvideo : ((s.publisher.fixOrigin [(1, onePicture)]).channels.find? 1).any (·.kind = .video) = true := by
    decide +kernel
  dsimp only at hall
  generalize hs : (start .default).run .obliging _ = t at hall
  obtain rfl : s = t := hs
  clear_value s
  obtain ⟨hwaits, -, hframe⟩ := hall
  obtain ⟨c, hc, hh⟩ := (Option.any_eq_true _ _).1 hheld
  obtain ⟨d, hd, hk⟩ := (Option.any_eq_true _ _).1 hvideo
  refine ⟨⟨c, hc, hh, hwaits 2 c hc hh⟩, d, hd, ?_⟩
  exact (hframe [(1, onePicture)] 1 onePicture d (by simp) List.mem_cons_self hd (by simpa using hk)).1

end Presentation
end Packager

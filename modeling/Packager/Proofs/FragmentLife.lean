import Mathlib.Logic.Relation
import Packager.Proofs.AudioTimeline
import Packager.Proofs.FlushedFrames
/-!
# Proofs.FragmentLife — what can happen to the open fragment

A sample is appended, the last one is given a duration or is stretched, and in the end the fragment goes into a free slot
under the next number, or is lost: `Step` has one constructor for each, and every operation of a segmenter of either kind
is a chain of steps (`Session.apply_advances`).  So what each step keeps holds of all slots that are filled in a run, whatever the
calls are and whichever slots they are made with (`StepInvariant.run`).
-/
namespace Packager

/-- Whether a tick and a sample with it are on a line of frames. -/
def Seen (line : List (Nat × Bytes)) (tick : Nat) : Prop := ∃ data, (tick, data) ∈ line

/-- Whether two frames of a line are `d` ticks apart. -/
def Apart (line : List (Nat × Bytes)) (d : Nat) : Prop := ∃ tick, Seen line tick ∧ Seen line (tick + d)

/-- The open fragment, the number it will get, and the slot it may go to. -/
structure Bench where
  fragment : OpenFragment
  number : Nat
  slot : Slot

/-- Whether a slot holds a fragment under a number. -/
structure Slot.Files (slot : Slot) (number : Nat) (f : OpenFragment) : Prop where
  held : slot.isEmpty = false
  data : slot.data = Fragment.encode ⟨soleTrack, .ofNat number, .ofNat f.start, f.samples⟩
  sequence : slot.sequence = number
  timestamp : slot.timestamp = f.start
  duration : slot.duration = f.duration

/-- A fragment before its last sample is followed by another, or cut: in a video track the sample may still get its
duration.  Only two frames that far apart make it last longer than a sample can say. -/
inductive Retimed (kind : Kind) (line : List (Nat × Bytes)) (f : OpenFragment) : OpenFragment → Prop where
  | same : Retimed kind line f f
  | last (duration : Nat) (hk : kind = .video) (h : OpenFragment.longest < duration → Apart line duration) :
    Retimed kind line f (f.setLast duration)

/-- One thing that can happen to the open fragment of a track whose frames are those of `line`. -/
inductive Step (kind : Kind) (line : List (Nat × Bytes)) (b : Bench) : Bench → Prop where
  | push {f : OpenFragment} {start : Nat} {data : Bytes} (hf : Retimed kind line b.fragment f) (ticks : UInt32)
    (isSync : Bool) (h : (start, data) ∈ line) :
    Step kind line b { b with fragment := f.push start ⟨ticks, isSync, data⟩ }
  | bridge {f : OpenFragment} {next : Nat} (h : b.fragment.bridge? next = some f) :
    Step kind line b { b with fragment := f }
  | lose : Step kind line b { b with fragment := .empty }
  | file {f : OpenFragment} {slot : Slot} (hf : Retimed kind line b.fragment f) (hne : f.isEmpty = false)
    (hfree : b.slot.isEmpty = true) (h : slot.Files b.number f) : Step kind line b ⟨.empty, b.number + 1, slot⟩

/-- What happens one after the other. -/
abbrev Steps (kind : Kind) (line : List (Nat × Bytes)) : Bench → Bench → Prop := Relation.ReflTransGen (Step kind line)

/-- A slot that is held stays as it is. -/
theorem Step.held {kind : Kind} {line : List (Nat × Bytes)} {b c : Bench} (h : Step kind line b c)
    (hs : b.slot.isEmpty = false) : c.slot = b.slot := by
  cases h with
  | push | bridge | lose => rfl
  | file _ _ hfree =>
    rw [hs] at hfree
    cases hfree

theorem Steps.held {kind : Kind} {line : List (Nat × Bytes)} {b c : Bench} (h : Steps kind line b c)
    (hs : b.slot.isEmpty = false) : c.slot = b.slot := by
  induction h with
  | refl => rfl
  | tail _ hstep ih =>
    rw [← ih] at hs ⊢
    exact hstep.held hs

/-- A property of the frames, the slots that were filled, the open fragment and the next number, which every step keeps. -/
structure StepInvariant (kind : Kind) (P : List (Nat × Bytes) → List Slot → OpenFragment → Nat → Prop) : Prop where
  mono : ∀ {line line' placed f n}, P line placed f n → line ⊆ line' → P line' placed f n
  step : ∀ {line placed b c}, P line placed b.fragment b.number → Step kind line b c →
    P line (placed ++ b.slot.fills c.slot) c.fragment c.number

/-- A property is kept when each thing that can happen keeps it.  Only a fragment that is filed fills a slot. -/
theorem StepInvariant.of_cases {kind : Kind} {P : List (Nat × Bytes) → List Slot → OpenFragment → Nat → Prop}
    (mono : ∀ {line line' placed f n}, P line placed f n → line ⊆ line' → P line' placed f n)
    (push : ∀ {line placed f g n start} {sample : Sample}, P line placed f n → Retimed kind line f g →
      (start, sample.data) ∈ line → P line placed (g.push start sample) n)
    (bridge : ∀ {line placed f g n next}, P line placed f n → f.bridge? next = some g → P line placed g n)
    (lose : ∀ {line placed f n}, P line placed f n → P line placed .empty n)
    (file : ∀ {line placed f g n slot}, P line placed f n → Retimed kind line f g → g.isEmpty = false →
      slot.Files n g → P line (placed ++ [slot]) .empty (n + 1)) : StepInvariant kind P where
  mono := mono
  step := by
    intro line placed b c h hstep
    cases hstep with
    | push hf ticks isSync hs =>
      rw [Slot.fills_self, List.append_nil]
      exact push h hf hs
    | bridge hb =>
      rw [Slot.fills_self, List.append_nil]
      exact bridge h hb
    | lose =>
      rw [Slot.fills_self, List.append_nil]
      exact lose h
    | @file g slot hf hn hfree hs =>
      rw [show b.slot.fills slot = [slot] by simp [Slot.fills, hfree, hs.held]]
      exact file h hf hn hs

theorem StepInvariant.steps {kind : Kind} {P : List (Nat × Bytes) → List Slot → OpenFragment → Nat → Prop}
    (hP : StepInvariant kind P) {line : List (Nat × Bytes)} {placed : List Slot} {b c : Bench}
    (h : P line placed b.fragment b.number) (hs : Steps kind line b c) :
    P line (placed ++ b.slot.fills c.slot) c.fragment c.number := by
  induction hs with
  | refl =>
    rw [Slot.fills_self, List.append_nil]
    exact h
  | @tail c d hsteps hstep ih =>
    -- a slot that is filled once is held for the rest of the chain, so the two fillings make one
    have hnext := hP.step ih hstep
    rwa [List.append_assoc, Slot.fills_trans (Steps.held hsteps) hstep.held] at hnext

/-! ## Retiming the last sample -/

theorem OpenFragment.setLast_of_isEmpty {f : OpenFragment} (h : f.isEmpty = true) (duration : Nat) :
    f.setLast duration = f := by
  rw [setLast, samples_of_isEmpty h]
  rfl

/-- A sample that is stretched can hold all of its new duration. -/
theorem OpenFragment.exists_of_bridge? {f g : OpenFragment} {next : Nat} (h : f.bridge? next = some g) :
    ∃ before last gap, f.samples = before ++ [last] ∧ last.duration.toNat + gap ≤ longest ∧
      g = { f with
        samples := before ++ [{ last with duration := .ofNat (last.duration.toNat + gap) }]
        duration := f.duration + gap } := by
  unfold bridge? at h
  split at h
  · cases h
  · rename_i last hl
    obtain ⟨before, hs⟩ := List.getLast?_eq_some_iff.1 hl
    simp only at h
    split at h
    · cases h
    · rename_i hfits
      cases h
      refine ⟨before, last, next - (f.start + f.duration), hs, by omega, ?_⟩
      rw [hs, List.dropLast_concat]

/-! ## The operations as chains of steps -/

def Assembly.bench (a : Assembly) (slot : Slot) : Bench := ⟨a.fragment, a.nextSequence, slot⟩

section
variable {kind : Kind} {line : List (Nat × Bytes)}

theorem Retimed.eq_of_isEmpty {f g : OpenFragment} (h : Retimed kind line f g) (hg : g.isEmpty = true) : g = f := by
  cases h with
  | same => rfl
  | last duration =>
    rw [OpenFragment.isEmpty_setLast] at hg
    exact OpenFragment.setLast_of_isEmpty hg duration

theorem Assembly.close_steps (a : Assembly) {f : OpenFragment} {slot : Slot} (hf : Retimed kind line f a.fragment)
    (hfree : slot.isEmpty = true) :
    Steps kind line ⟨f, a.nextSequence, slot⟩ ((a.close slot).state.bench (a.close slot).slot) := by
  unfold close
  cases hn : a.fragment.isEmpty with
  | true =>
    rw [← hf.eq_of_isEmpty hn]
    exact .refl
  | false =>
    simp only [Bool.false_eq_true, if_false]
    rcases slot.load_cases a.segment.encode a.nextSequence a.fragment.start a.fragment.duration with
      h | ⟨t, h, hdata, hlength, hsequence, htimestamp, hduration⟩ <;> rw [h]
    · -- the segment does not fit: the fragment is gone, and its number is not used up
      exact .single .lose
    · have hpos := a.segment.length_encode_pos
      have hheld : t.isEmpty = false := Slot.isEmpty_of_length_pos (by omega)
      exact .single (.file hf hn hfree ⟨hheld, hdata, hsequence, htimestamp, hduration⟩)

theorem Assembly.push_step (a : Assembly) {f : OpenFragment} {p : Pending} (hf : Retimed kind line f a.fragment)
    (slot : Slot) (h : p.arrival ∈ line) : Step kind line ⟨f, a.nextSequence, slot⟩ ((a.push p).bench slot) :=
  .push hf a.sampleTicks p.isSync h

namespace AudioStream

theorem resynchronize_steps (a : Assembly) (v : AudioStream) (next : Nat) (slot : Slot) :
    Steps kind line (a.bench slot) ((resynchronize a v next slot).state.1.bench (resynchronize a v next slot).slot) := by
  rcases resynchronize_cases a v next slot with ⟨-, he⟩ | ⟨-, -, ⟨hfree, he⟩ | ⟨-, g, hg, he⟩ | ⟨-, -, he⟩⟩ <;> rw [he]
  · exact a.close_steps .same hfree
  · exact .single (.bridge hg)

theorem append_steps {a : Assembly} (v : AudioStream) (slot : Slot) (h : ∀ p ∈ a.pending, p.arrival ∈ line) :
    Steps kind line (a.bench slot) ((append a v slot).state.1.bench (append a v slot).slot) := by
  unfold append
  cases hp : a.pending with
  | none => exact .refl
  | some p =>
    have hcut : Steps kind line (a.bench slot) _ := resynchronize_steps { a with pending := none } v p.start slot
    simp only
    generalize resynchronize { a with pending := none } v p.start slot = cut at hcut ⊢
    have hpush := hcut.tail (cut.state.1.push_step .same cut.slot (h p hp))
    split
    · split
      · rename_i hfull
        rw [Bool.and_eq_true] at hfull
        exact hpush.trans (Assembly.close_steps _ .same hfull.2)
      · exact hpush
    · exact hpush

theorem absorb_steps {a : Assembly} (slot : Slot) (h : ∀ p ∈ a.pending, p.arrival ∈ line) :
    Steps kind line (a.bench slot) ((absorb a).bench slot) := by
  unfold absorb
  cases hp : a.pending with
  | none => exact .refl
  | some p => exact .single (Assembly.push_step { a with pending := none } .same slot (h p hp))

end AudioStream

/-! ## Pictures -/

/-- What a video track that is still to append frames knows of those that it has: the ticks it keeps are ticks of
frames, and so is the distance from which its frame duration was taken, at least one that is too long for a sample. -/
structure VideoStream.Recalls (line : List (Nat × Bytes)) (a : Assembly) (v : VideoStream) : Prop where
  last : ∀ tick ∈ v.lastTicks, Seen line tick
  previous : ∀ tick ∈ v.previousTicks, Seen line tick
  start : a.fragment.isEmpty = false → Seen line v.lastStart
  pace : OpenFragment.longest < a.clock.frameTicks → Apart line a.clock.frameTicks

namespace VideoStream

variable {a : Assembly} {v : VideoStream} {p : Pending}

/-- A sample that lasts longer than it can say does so because of two frames. -/
theorem Recalls.apart (h : Recalls line a v) (hp : p.arrival ∈ line) (hn : a.fragment.isEmpty = false)
    (hlong : OpenFragment.longest < sampleDuration a.clock v.lastStart p.start) :
    Apart line (sampleDuration a.clock v.lastStart p.start) := by
  unfold sampleDuration at hlong ⊢
  simp only at hlong ⊢
  split
  · rename_i hcapped
    rw [if_pos hcapped] at hlong
    exact h.pace hlong
  · rename_i hkept
    rw [if_neg hkept] at hlong
    refine ⟨v.lastStart, h.start hn, p.data, ?_⟩
    rwa [show v.lastStart + (p.start - v.lastStart) = p.start by omega]

theorem Recalls.closeLast_retimed (h : Recalls line a v) (hp : p.arrival ∈ line) :
    Retimed .video line a.fragment (closeLast a v p.start).fragment := by
  cases hn : a.fragment.isEmpty with
  | true =>
    rw [closeLast, OpenFragment.setLast_of_isEmpty hn]
    exact .same
  | false => exact .last _ rfl (h.apart hp hn)

/-- What is recalled once a picture is appended. -/
theorem Recalls.appended (h : Recalls line a v) (hp : p.arrival ∈ line) {b : Assembly} (hm : a.Moved b) :
    Recalls line b { v with lastStart := p.start } := by
  obtain ⟨f, n, phase, rfl⟩ := hm
  exact ⟨h.last, h.previous, fun _ => ⟨p.data, hp⟩, h.pace⟩

theorem Recalls.appendFrame_steps (h : Recalls line a v) (slot : Slot) (hp : p.arrival ∈ line) :
    let out := appendFrame a v p slot
    Steps .video line (a.bench slot) (out.state.1.bench out.slot) ∧ Recalls line out.state.1 out.state.2 := by
  have hm := (appendFrame_moved a v p slot).1
  have hclosed := h.closeLast_retimed hp
  rcases appendFrame_cases a v p slot with ⟨-, -, he⟩ | ⟨-, hstream, ⟨-, hstate, hslot, -⟩ | ⟨-, -, hfree, hstate, hslot, -⟩⟩
  · rw [he]
    exact ⟨.refl, h⟩
  · simp only [hstream, hslot]
    refine ⟨?_, h.appended hp hm⟩
    rw [hstate]
    exact .single ((closeLast a v p.start).push_step hclosed slot hp)
  · simp only [hstream, hslot]
    refine ⟨?_, h.appended hp hm⟩
    rw [hstate]
    exact .tail ((closeLast a v p.start).close_steps hclosed hfree) (Assembly.push_step _ .same _ hp)

theorem appendAll_steps : ∀ (queue : List Pending) (acc : Outcome (Assembly × VideoStream)),
    Recalls line acc.state.1 acc.state.2 → (∀ p ∈ queue, p.arrival ∈ line) →
    let out := appendAll queue acc
    Steps .video line (acc.state.1.bench acc.slot) (out.state.1.bench out.slot) ∧ Recalls line out.state.1 out.state.2
  | [], _, h, _ => ⟨.refl, h⟩
  | p :: queue, acc, h, hq => by
    obtain ⟨hstep, hnext⟩ := h.appendFrame_steps acc.slot (hq p List.mem_cons_self)
    obtain ⟨hrest, hlast⟩ := appendAll_steps queue (appendNext acc p) hnext fun q hm => hq q (List.mem_cons_of_mem p hm)
    exact ⟨hstep.trans hrest, hlast⟩

theorem Recalls.absorbFrame_steps (h : Recalls line a v) (slot : Slot) (hp : p.arrival ∈ line) :
    Steps .video line (a.bench slot) ((absorbFrame a v p).1.bench slot) ∧
    Recalls line (absorbFrame a v p).1 (absorbFrame a v p).2 := by
  unfold absorbFrame
  split
  · exact ⟨.refl, h⟩
  · refine ⟨.single ((closeLast a v p.start).push_step (h.closeLast_retimed hp) slot hp), h.appended hp ?_⟩
    exact (closeLast_moved (.refl a) v p.start).push p

theorem absorbAll_steps (slot : Slot) : ∀ (queue : List Pending) (a : Assembly) (v : VideoStream),
    Recalls line a v → (∀ p ∈ queue, p.arrival ∈ line) →
    let out := queue.foldl (fun (a, v) p => absorbFrame a v p) (a, v)
    Steps .video line (a.bench slot) (out.1.bench slot) ∧ Recalls line out.1 out.2
  | [], _, _, h, _ => ⟨.refl, h⟩
  | p :: queue, a, v, h, hq => by
    obtain ⟨hstep, hnext⟩ := h.absorbFrame_steps slot (hq p List.mem_cons_self)
    obtain ⟨hrest, hlast⟩ := absorbAll_steps slot queue _ _ hnext fun q hm => hq q (List.mem_cons_of_mem p hm)
    exact ⟨hstep.trans hrest, hlast⟩

end VideoStream

end

theorem VideoStream.Recalls.mono {line line' : List (Nat × Bytes)} {a : Assembly} {v : VideoStream}
    (h : Recalls line a v) (hl : line ⊆ line') : Recalls line' a v := by
  have hseen : ∀ {tick : Nat}, Seen line tick → Seen line' tick := fun ⟨data, hm⟩ => ⟨data, hl hm⟩
  refine ⟨fun tick ht => hseen (h.last tick ht), fun tick ht => hseen (h.previous tick ht), fun hn => hseen (h.start hn),
    fun hlong => ?_⟩
  obtain ⟨tick, hfirst, hsecond⟩ := h.pace hlong
  exact ⟨tick, hseen hfirst, hseen hsecond⟩

namespace Segmenter

/-- Whether the frames that wait and what is kept of others are from a line. -/
structure Recalls (line : List (Nat × Bytes)) (s : Segmenter) : Prop where
  waits : ∀ p ∈ s.waiting, p.arrival ∈ line
  video : ∀ v, s.stream = .video v → v.Recalls line s.assembly

variable {line : List (Nat × Bytes)} {s g : Segmenter}

theorem recalls_audio {a : Assembly} {v : AudioStream} :
    Recalls line ⟨a, .audio v⟩ ↔ ∀ p ∈ a.pending, p.arrival ∈ line :=
  ⟨fun h p hp => h.waits p (Option.mem_toList.2 hp), fun h => ⟨fun p hp => h p (Option.mem_toList.1 hp), nofun⟩⟩

theorem recalls_video {a : Assembly} {v : VideoStream} :
    Recalls line ⟨a, .video v⟩ ↔ (∀ p ∈ VideoStream.queue a v, p.arrival ∈ line) ∧ v.Recalls line a :=
  ⟨fun h => ⟨h.waits, h.video v rfl⟩, fun h => ⟨h.1, fun _ hw => by cases hw; exact h.2⟩⟩

theorem Recalls.mono {line' : List (Nat × Bytes)} (h : s.Recalls line) (hl : line ⊆ line') : s.Recalls line' :=
  ⟨fun p hp => hl (h.waits p hp), fun v hv => (h.video v hv).mono hl⟩

theorem Recalls.append_steps (h : s.Recalls line) (slot : Slot) :
    Steps s.kind line (s.assembly.bench slot) ((s.append slot).state.assembly.bench (s.append slot).slot) ∧
    (s.append slot).state.Recalls line := by
  cases hc : s.assembly.configured with
  | false =>
    rw [append_of_unconfigured hc]
    exact ⟨.refl, h⟩
  | true =>
    have hnone := waiting_append slot hc
    obtain ⟨a, stream⟩ := s
    cases stream with
    | audio v =>
      rw [append_audio v slot hc] at hnone ⊢
      exact ⟨AudioStream.append_steps v slot (recalls_audio.1 h), ⟨by rw [hnone]; exact nofun, nofun⟩⟩
    | video v =>
      obtain ⟨hwaits, hv⟩ := recalls_video.1 h
      obtain ⟨hsteps, hafter⟩ := VideoStream.appendAll_steps (VideoStream.queue a v)
        ⟨.ok false, ({ a with pending := none }, { v with preroll := [] }), slot⟩ ⟨hv.last, hv.previous, hv.start, hv.pace⟩ hwaits
      rw [append_video v slot hc] at hnone ⊢
      exact ⟨hsteps, ⟨by rw [hnone]; exact nofun, fun w hw => by cases hw; exact hafter⟩⟩

theorem Recalls.absorb_steps (h : s.Recalls line) (slot : Slot) :
    Steps s.kind line (s.assembly.bench slot) (s.absorb.assembly.bench slot) ∧ s.absorb.Recalls line := by
  have hnone := s.absorb_stock.2
  obtain ⟨a, stream⟩ := s
  cases stream with
  | audio v =>
    exact ⟨AudioStream.absorb_steps slot (recalls_audio.1 h), ⟨by rw [hnone]; exact nofun, nofun⟩⟩
  | video v =>
    obtain ⟨hwaits, hv⟩ := recalls_video.1 h
    obtain ⟨hsteps, hafter⟩ := VideoStream.absorbAll_steps slot (VideoStream.queue a v) { a with pending := none }
      { v with preroll := [] } ⟨hv.last, hv.previous, hv.start, hv.pace⟩ hwaits
    exact ⟨hsteps, ⟨by rw [hnone]; exact nofun, fun w hw => by cases hw; exact hafter⟩⟩

/-- What is recalled does not depend on the fragment once it is closed. -/
theorem Recalls.closed (h : s.Recalls line) {f : OpenFragment} (hf : f.isEmpty = true) (n : Nat) (phase : Phase) :
    Recalls line { s with assembly := { s.assembly with fragment := f, nextSequence := n, phase := phase } } := by
  refine ⟨fun p hp => h.waits p ?_, fun v hv => ?_⟩
  · obtain ⟨a, stream⟩ := s
    cases stream <;> exact hp
  · obtain ⟨hlast, hprevious, -, hpace⟩ := h.video v hv
    refine ⟨hlast, hprevious, fun hn => ?_, hpace⟩
    rw [show OpenFragment.isEmpty _ = true from hf] at hn
    cases hn

theorem Recalls.finish_steps (h : s.Recalls line) (slot : Slot) :
    Steps s.kind line (s.assembly.bench slot) ((s.finish slot).state.assembly.bench (s.finish slot).slot) ∧
    (s.finish slot).state.Recalls line := by
  rcases s.finish_cases slot with ⟨-, he⟩ | ⟨hfree, -, hslot, phase, hstate⟩
  · rw [he]
    exact ⟨.refl, h⟩
  · obtain ⟨hsteps, hafter⟩ := h.absorb_steps slot
    have hclose : Steps s.kind line _ _ := s.absorb.assembly.close_steps .same hfree
    obtain ⟨f, n, phase', hst, hf⟩ := s.absorb.assembly.close_state slot
    rw [hslot, hstate]
    refine ⟨hsteps.trans hclose, ?_⟩
    rw [hst]
    exact hafter.closed hf n phase

theorem Recalls.flush (h : s.Recalls line) : s.flush.Recalls line := by
  refine ⟨fun p hp => h.waits p ?_, fun v hv => ?_⟩
  · rw [waiting_flush] at hp
    obtain ⟨a, stream⟩ := s
    cases stream with
    | audio v => cases hp
    | video v => exact List.mem_append_left _ hp
  · obtain ⟨a, stream⟩ := s
    cases stream with
    | audio w => cases hv
    | video w =>
      cases hv
      obtain ⟨hlast, hprevious, -, hpace⟩ := h.video v rfl
      exact ⟨hlast, hprevious, nofun, hpace⟩

theorem Recalls.relabelled (h : s.Recalls line) (hg : s.Relabelled g) : g.Recalls line := by
  obtain ⟨zero, metadata, bitrate, described, rfl⟩ := hg
  obtain ⟨a, stream⟩ := s
  cases stream with
  | audio v => exact ⟨h.waits, nofun⟩
  | video v =>
    obtain ⟨hwaits, hv⟩ := recalls_video.1 h
    exact recalls_video.2 ⟨hwaits, hv.last, hv.previous, hv.start, hv.pace⟩

theorem Recalls.configure (h : s.Recalls line) (hg : s.configure = .ok g) : g.Recalls line := by
  obtain ⟨a, stream⟩ := s
  cases stream with
  | audio v =>
    rw [configure_audio] at hg
    obtain ⟨b, hc, rfl⟩ := ok_of_map hg
    obtain ⟨ticks, -, rfl⟩ := AudioStream.configure_ok hc
    exact ⟨h.waits, nofun⟩
  | video v =>
    rw [configure_video] at hg
    obtain ⟨b, hc, rfl⟩ := ok_of_map hg
    obtain ⟨-, last, previous, hlast, hprevious, rfl⟩ := VideoStream.configure_ok hc
    obtain ⟨hwaits, hv⟩ := recalls_video.1 h
    refine recalls_video.2 ⟨hwaits, hv.last, hv.previous, hv.start, fun hlong => ?_⟩
    -- a new frame duration is the distance of the last two frames
    show Apart line (if previous < last then last - previous else a.clock.frameTicks)
    split
    · rename_i hlt
      refine ⟨previous, hv.previous previous hprevious, ?_⟩
      rw [show previous + (last - previous) = last by omega]
      exact hv.last last hlast
    · rename_i hlt
      refine hv.pace ?_
      have hlong : OpenFragment.longest < if previous < last then last - previous else a.clock.frameTicks := hlong
      rwa [if_neg hlt] at hlong

end Segmenter

/-! ## Runs -/

/-- The samples that the frames of a history make, each at the tick where a track of a kind puts its frame. -/
def Moment.line (kind : Kind) (history : List Moment) : List (Nat × Bytes) :=
  match kind with
  | .audio => timeline history
  | .video => arrivals history

theorem Moment.line_append (kind : Kind) (h k : List Moment) : line kind (h ++ k) = line kind h ++ line kind k := by
  cases kind with
  | audio => exact timeline_append h k
  | video => exact arrivals_append h k

theorem Moment.line_eq_nil (kind : Kind) {moments : List Moment} (h : ∀ frame clock, .taken frame clock ∉ moments) :
    line kind moments = [] := by
  have other : ∀ moment ∈ moments, moment = .configured ∨ moment = .finished := fun moment hm => by
    cases moment with
    | taken frame clock => exact absurd hm (h frame clock)
    | configured => exact .inl rfl
    | finished => exact .inr rfl
  cases kind with
  | audio => exact List.filterMap_eq_nil_iff.2 fun moment hm => by rcases other moment hm with rfl | rfl <;> rfl
  | video => exact List.filterMap_eq_nil_iff.2 fun moment hm => by rcases other moment hm with rfl | rfl <;> rfl

/-- The preroll that a picture leaves is of those that waited before it. -/
theorem VideoStream.mem_queue_of_preroll {a : Assembly} {v w : VideoStream}
    (h : w.preroll = match a.pending with
      | some q => if a.configured then v.preroll else v.preroll.drop (v.preroll.length + 1 - maxPreroll) ++ [q]
      | none => v.preroll) {p : Pending} (hp : p ∈ w.preroll) : p ∈ queue a v := by
  unfold queue
  rw [h] at hp
  cases hpending : a.pending with
  | none =>
    rw [hpending] at hp
    exact List.mem_append_left _ hp
  | some q =>
    rw [hpending] at hp
    simp only at hp
    split at hp
    · exact List.mem_append_left _ hp
    · rcases List.mem_append.1 hp with hp | hp
      · exact List.mem_append_left _ (List.mem_of_mem_drop hp)
      · exact List.mem_append_right _ hp

/-- **A frame that is taken waits where the history has it.** -/
theorem Segmenter.Recalls.manage {line : List (Nat × Bytes)} {s g : Segmenter} (h : s.Recalls line) {frame : Frame}
    {isNew : Bool} (hm : s.manage frame = .ok (isNew, g)) :
    g.Recalls (line ++ Moment.line s.kind (if frame.sample?.isSome then [.taken frame g.assembly.clock] else [])) := by
  rcases manage_cases hm with ⟨a, v, f, b, w, rfl, rfl, htaken, rfl⟩ | ⟨a, v, f, b, w, rfl, rfl, htaken, rfl⟩
  · obtain ⟨data, phase, hsample, rfl, -⟩ := AudioStream.manage_ok htaken
    refine recalls_audio.2 fun p hp => List.mem_append_right _ ?_
    cases hp
    rw [hsample]
    simp [Moment.line, Moment.timeline, Segmenter.kind, hsample, Pending.arrival]
  · obtain ⟨hwaits, hv⟩ := recalls_video.1 h
    rcases VideoStream.manage_taken htaken with ⟨hnone, rfl, sps, pps, rfl, -⟩ |
      ⟨data, isSync, phase, hsample, rfl, hfollows, hpreroll⟩
    · rw [hnone]
      exact Recalls.mono (recalls_video.2 ⟨hwaits, hv.last, hv.previous, hv.start, hv.pace⟩) (List.subset_append_left _ _)
    · obtain ⟨origin, expected, hclock, -⟩ := a.clock.accept_state f.pts
      have hnew : Moment.line .video (if (Frame.video f).sample?.isSome then
          [.taken (.video f) (a.clock.accept f.pts).1] else []) = [((a.clock.accept f.pts).1.ticksAt f.pts, data)] := by
        rw [hsample]
        simp [Moment.line, Moment.arrivals, hsample, Frame.pts]
      show Recalls (line ++ Moment.line .video _) _
      rw [hnew]
      generalize (a.clock.accept f.pts).1.ticksAt f.pts = arrived at hfollows ⊢
      have hold := hv.mono (List.subset_append_left line [(arrived, data)])
      have hlast : (arrived, data) ∈ line ++ [(arrived, data)] := List.mem_append_right _ (List.mem_singleton.2 rfl)
      refine recalls_video.2 ⟨fun p hp => ?_, fun tick ht => ?_, fun tick ht => ?_, fun hn => ?_, fun hlong => ?_⟩
      · rcases List.mem_append.1 hp with hp | hp
        · exact List.mem_append_left _ (hwaits p (VideoStream.mem_queue_of_preroll hpreroll hp))
        · cases List.mem_singleton.1 hp
          exact hlast
      · rw [hfollows.last] at ht
        cases ht
        exact ⟨data, hlast⟩
      · rw [hfollows.previous] at ht
        exact hold.last tick ht
      · rw [hfollows.start]
        exact hold.start hn
      · rw [hclock] at hlong ⊢
        exact hold.pace hlong

namespace Session

/-- The frames taken so far, each at the tick where the track puts it. -/
def line (s : Session) : List (Nat × Bytes) := Moment.line s.segmenter.kind s.history

def bench (s : Session) : Bench := s.assembly.bench s.slot

theorem line_eq {s t : Session} {more : List Moment} (hk : t.segmenter.kind = s.segmenter.kind)
    (hh : t.history = s.history ++ more) : t.line = s.line ++ Moment.line s.segmenter.kind more := by
  rw [line, hk, hh, Moment.line_append]
  rfl

/-- What one call makes of a session whose segmenter recalls the frames taken: a chain of steps, unless the caller
empties the slot. -/
structure Advances (s t : Session) : Prop where
  kind : t.segmenter.kind = s.segmenter.kind
  line : s.line ⊆ t.line
  recalls : t.segmenter.Recalls t.line
  steps : Steps s.segmenter.kind t.line s.bench t.bench ∨
    t.assembly.fragment = s.assembly.fragment ∧ t.assembly.nextSequence = s.assembly.nextSequence ∧
      s.slot.fills t.slot = []

/-- A call that takes no frame. -/
theorem Advances.of_steps {s t : Session} {more : List Moment} (hh : t.history = s.history ++ more)
    (hmore : ∀ frame clock, .taken frame clock ∉ more) (hk : t.segmenter.kind = s.segmenter.kind)
    (h : Steps s.segmenter.kind s.line s.bench t.bench ∧ t.segmenter.Recalls s.line) : s.Advances t := by
  have hline : t.line = s.line := by rw [line_eq hk hh, Moment.line_eq_nil _ hmore, List.append_nil]
  exact ⟨hk, by rw [hline]; exact List.Subset.refl _, by rw [hline]; exact h.2, .inl (by rw [hline]; exact h.1)⟩

/-- **Every call is a chain of steps.** -/
theorem apply_advances (s : Session) (call : Call) (h : s.segmenter.Recalls s.line) : s.Advances (s.apply call) := by
  have nothing : ∀ frame clock, Moment.taken frame clock ∉ ([] : List Moment) := fun _ _ => List.not_mem_nil
  have same : s.history = s.history ++ [] := (List.append_nil _).symm
  have relabel : ∀ g : Segmenter, s.segmenter.Relabelled g → s.Advances { s with segmenter := g } := fun g hg => by
    have hrecalls := h.relabelled hg
    obtain ⟨zero, metadata, bitrate, described, rfl⟩ := hg
    exact .of_steps same nothing rfl ⟨.refl, hrecalls⟩
  cases call with
  | manage frame =>
    cases hm : s.segmenter.manage frame with
    | error e =>
      rw [apply_manage_error hm]
      exact .of_steps same nothing rfl ⟨.refl, h⟩
    | ok r =>
      obtain ⟨isNew, g⟩ := r
      obtain ⟨hk, clock, pending, phase, hstate⟩ := Segmenter.manage_state hm
      rw [apply_manage_ok hm]
      have hline := line_eq (s := s) (t := { s with
        segmenter := g
        due := .configure
        history := s.history ++ if frame.sample?.isSome then [.taken frame g.assembly.clock] else [] }) hk rfl
      refine ⟨hk, by rw [hline]; exact List.subset_append_left _ _, by rw [hline]; exact h.manage hm, .inl ?_⟩
      have hbench : s.bench = g.assembly.bench s.slot := by
        rw [hstate]
        rfl
      rw [hbench]
      exact .refl
  | configure =>
    cases hc : s.segmenter.configure with
    | error lack =>
      rw [apply_configure_error hc]
      exact .of_steps same nothing rfl ⟨.refl, h⟩
    | ok g =>
      have hrecalls := h.configure hc
      obtain ⟨ticks, phase, rfl⟩ := Segmenter.configure_state hc
      rw [apply_configure_ok hc]
      refine .of_steps rfl (fun frame clock hm => ?_) rfl ⟨.refl, hrecalls⟩
      split at hm
      · cases hm
      · cases List.mem_singleton.1 hm
  | describe header => exact relabel _ (s.segmenter.relabelled_describe header)
  | append => exact .of_steps same nothing (s.segmenter.append_keeps s.slot).1 (h.append_steps s.slot)
  | finish =>
    refine .of_steps rfl (fun frame clock hm => ?_) (s.segmenter.finish_keeps s.slot).1 (h.finish_steps s.slot)
    split at hm
    · cases List.mem_singleton.1 hm
    · cases hm
  | flush => exact .of_steps same nothing s.segmenter.kind_flush ⟨.single .lose, h.flush⟩
  | setOrigin origin => exact relabel _ (s.segmenter.relabelled_setOrigin origin)
  | setBitrate bitrate => exact relabel _ (s.segmenter.relabelled_setBitrate bitrate)
  | clear =>
    refine ⟨rfl, List.Subset.refl _, h, .inr ⟨rfl, rfl, ?_⟩⟩
    show s.slot.fills s.slot.clear = []
    simp [Slot.fills, Slot.clear, Slot.isEmpty]

/-- The session with another slot in the caller's hands. -/
def withSlot (s : Session) (slot : Slot) : Session := { s with slot }

/-- Carries out calls, each with a slot of its own. -/
def runAmong (s : Session) (calls : List (Slot × Call)) : Session :=
  calls.foldl (fun s (slot, call) => (s.withSlot slot).apply call) s

/-- **What the operations of a segmenter keep holds after every such run.** -/
theorem runAmong_kept {P : Segmenter → Prop} (hP : Segmenter.Inherited fun s g => P s → P g)
    (hbitrate : ∀ s bitrate, P s → P (s.setBitrate bitrate)) :
    ∀ (calls : List (Slot × Call)) (s : Session), P s.segmenter → P (s.runAmong calls).segmenter
  | [], _, h => h
  | (slot, call) :: calls, s, h =>
    runAmong_kept hP hbitrate calls ((s.withSlot slot).apply call) (apply_kept hP hbitrate (s.withSlot slot) call h)

/-- The slots that the calls of such a run filled. -/
def filings : Session → List (Slot × Call) → List Slot
  | _, [] => []
  | s, (slot, call) :: calls =>
    slot.fills ((s.withSlot slot).apply call).slot ++ filings ((s.withSlot slot).apply call) calls

/-- A run with the session's own slot is one of these. -/
theorem exists_runAmong : ∀ (calls : List Call) (s : Session),
    ∃ slots : List Slot, s.runAmong (slots.zip calls) = s.run calls ∧ s.filings (slots.zip calls) = s.fills calls
  | [], _ => ⟨[], rfl, rfl⟩
  | call :: calls, s => by
    obtain ⟨slots, hrun, hfills⟩ := exists_runAmong calls (s.apply call)
    exact ⟨s.slot :: slots, hrun, congrArg (s.slot.fills (s.apply call).slot ++ ·) hfills⟩

end Session

/-- **What each step keeps holds after every run**, of all the slots that were filled. -/
theorem StepInvariant.run {kind : Kind} {P : List (Nat × Bytes) → List Slot → OpenFragment → Nat → Prop} (hP : StepInvariant kind P) :
    ∀ (calls : List (Slot × Call)) (s : Session) (placed : List Slot), s.segmenter.kind = kind →
      s.segmenter.Recalls s.line → P s.line placed s.assembly.fragment s.assembly.nextSequence →
      let t := s.runAmong calls
      P t.line (placed ++ s.filings calls) t.assembly.fragment t.assembly.nextSequence
  | [], s, placed, _, _, h => by
    show P s.line (placed ++ []) _ _
    rwa [List.append_nil]
  | (slot, call) :: calls, s, placed, hk, hr, h => by
    subst hk
    obtain ⟨hkind, hline, hrecalls, hsteps⟩ := (s.withSlot slot).apply_advances call hr
    show P _ (placed ++ (_ ++ _)) _ _
    rw [← List.append_assoc]
    refine hP.run calls ((s.withSlot slot).apply call) _ hkind hrecalls ?_
    have hmore := hP.mono h hline
    rcases hsteps with hsteps | ⟨hfragment, hnumber, hnone⟩
    · exact hP.steps hmore hsteps
    · rw [show slot.fills _ = [] from hnone, List.append_nil, hfragment, hnumber]
      exact hmore

theorem Segmenter.recalls_start (kind : Kind) (plan : SegmenterPlan) : (start kind plan).Recalls [] := by
  cases kind with
  | audio => exact recalls_audio.2 nofun
  | video => exact recalls_video.2 ⟨nofun, nofun, nofun, nofun, fun hlong => absurd hlong (Nat.not_lt_zero _)⟩

theorem StepInvariant.run_start {kind : Kind} {P : List (Nat × Bytes) → List Slot → OpenFragment → Nat → Prop}
    (hP : StepInvariant kind P) (h : P [] [] .empty 1) (plan : SegmenterPlan) (capacity : Nat) (calls : List (Slot × Call)) :
    let s := Session.start kind plan capacity
    let t := s.runAmong calls
    P t.line (s.filings calls) t.assembly.fragment t.assembly.nextSequence := by
  have hk : (Session.start kind plan capacity).segmenter.kind = kind := by cases kind <;> rfl
  have hline : (Session.start kind plan capacity).line = [] := Moment.line_eq_nil _ fun _ _ => List.not_mem_nil
  refine hP.run calls (Session.start kind plan capacity) [] hk ?_ ?_ <;> rw [hline]
  · exact Segmenter.recalls_start kind plan
  · exact h

end Packager

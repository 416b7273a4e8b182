import Packager.Proofs.Answers
import Packager.Proofs.SharedOrigin
/-!
# Proofs.Phases — what the phase of a segmenter tells

The phase is set in seven places, by operations that can come in any order.  What it tells of an assembly is one
invariant (`Assembly.Phased`): which samples are open, whether a frame was accepted, whether the timing is known.  Each
thing that happens to an assembly keeps it, so every operation of a segmenter does (`Segmenter.inPhase_inherited`), and
with the observed frames it says what each phase means after every run (`Session.phase_tells`).

One phase can be wrong in one direction only: a fragment that is lost to a slot that is too small leaves an assembly
that still says that samples are open.
-/
namespace Packager

/-! ## Assemblies -/

namespace Assembly

/-- What the phase of an assembly tells. -/
structure Phased (a : Assembly) : Prop where
  /-- Samples are open in one phase only. -/
  opened : a.fragment.isEmpty = false → a.phase = .accumulating
  unset : a.phase = .uninitialized → a.clock.offset = none
  begun : a.phase = .configuring → a.clock.offset.isSome = true ∧ a.configured = false
  ready : a.phase = .ready → a.configured = true
  paced : a.configured = true → 0 < a.clock.frameTicks
  /-- Before its first frame an assembly knows and holds nothing. -/
  blank : a.clock.offset = none → a.configured = false ∧ a.fragment.isEmpty = true

/-- Whether samples are open in the phase that says so. -/
def Buffers (a : Assembly) : Prop := a.phase = .accumulating → a.fragment.isEmpty = false

/-- A property that appending frames keeps: what can happen is that the last sample gets another duration, that a sample
is appended, and that the fragment is closed before one is. -/
structure Appendable (P : Assembly → Prop) : Prop where
  retime : ∀ {a f}, P a → f.isEmpty = a.fragment.isEmpty → P { a with fragment := f }
  push : ∀ {a} p, P a → P (a.push p)
  cut : ∀ {a} slot p, P a → P ((a.close slot).state.push p)

variable {a : Assembly}

/-- **The timing ends the phases before it**, and no other. -/
theorem configure_phase (a : Assembly) (ticks : Nat) :
    (a.phase ≠ .accumulating ∧ (a.configure ticks).phase = .ready) ∨
    (a.phase ≠ .uninitialized ∧ a.phase ≠ .configuring ∧ (a.configure ticks).phase = a.phase) := by
  unfold configure
  cases a.phase with
  | uninitialized | configuring => exact .inl ⟨nofun, rfl⟩
  | ready | accumulating | boundary | finishing => exact .inr ⟨nofun, nofun, rfl⟩

namespace Phased

theorem start (plan : SegmenterPlan) : (Assembly.start plan).Phased :=
  ⟨nofun, fun _ => rfl, nofun, nofun, nofun, fun _ => ⟨rfl, rfl⟩⟩

theorem isEmpty (h : a.Phased) (hp : a.phase ≠ .accumulating) : a.fragment.isEmpty = true := by
  cases hf : a.fragment.isEmpty with
  | true => rfl
  | false => exact absurd (h.opened hf) hp

theorem of_offset (ho : a.clock.offset.isSome = true) (hset : a.phase ≠ .uninitialized)
    (hopened : a.fragment.isEmpty = false → a.phase = .accumulating)
    (hbegun : a.phase = .configuring → a.configured = false) (hready : a.phase = .ready → a.configured = true)
    (hpaced : a.configured = true → 0 < a.clock.frameTicks) : a.Phased := by
  refine ⟨hopened, fun hp => absurd hp hset, fun hp => ⟨ho, hbegun hp⟩, hready, hpaced, fun hn => ?_⟩
  rw [hn] at ho
  cases ho

/-- **The first frame starts the phase**: nothing is known or open then, and later frames leave the phase alone. -/
theorem accept (h : a.Phased) (pts : Nanos) : (a.accept pts).1.Phased := by
  obtain ⟨origin, expected, hclock, -⟩ := a.clock.accept_state pts
  show Phased { a with
    clock := (a.clock.accept pts).1, phase := if a.clock.offset.isNone then .configuring else a.phase }
  rw [hclock]
  cases ho : a.clock.offset with
  | none =>
    obtain ⟨hc, hf⟩ := h.blank ho
    refine of_offset rfl nofun (fun hn => ?_) (fun _ => hc) nofun h.paced
    rw [show a.fragment.isEmpty = false from hn] at hf
    cases hf
  | some first =>
    refine of_offset rfl (fun hp => ?_) h.opened (fun hp => (h.begun hp).2) h.ready h.paced
    have hnone := h.unset hp
    rw [ho] at hnone
    cases hnone

theorem staged (h : a.Phased) (pending : Option Pending) : Phased { a with pending := pending } :=
  ⟨h.opened, h.unset, h.begun, h.ready, h.paced, h.blank⟩

theorem configure (h : a.Phased) (ho : a.clock.offset.isSome = true) {ticks : Nat} (hpos : 0 < ticks) :
    (a.configure ticks).Phased := by
  rcases a.configure_phase ticks with ⟨hbefore, hphase⟩ | ⟨hset, hbegun, hphase⟩
  · refine of_offset ho ?_ (fun hn => absurd (h.opened hn) hbefore) ?_ (fun _ => rfl) fun _ => hpos
    all_goals
      rw [hphase]
      nofun
  · refine of_offset ho ?_ ?_ ?_ (fun _ => rfl) fun _ => hpos <;> rw [hphase]
    · exact hset
    · exact h.opened
    · exact fun hp => absurd hp hbegun

theorem push (h : a.Phased) (ho : a.clock.offset.isSome = true) (p : Pending) : (a.push p).Phased :=
  of_offset ho nofun (fun _ => rfl) nofun nofun h.paced

/-- Whether samples are open is all that the phase tells of the fragment. -/
theorem retime (h : a.Phased) {f : OpenFragment} (hf : f.isEmpty = a.fragment.isEmpty) :
    Phased { a with fragment := f } := by
  refine ⟨fun hn => h.opened ?_, h.unset, h.begun, h.ready, h.paced, fun hn => ⟨(h.blank hn).1, ?_⟩⟩
  · rw [← hf]
    exact hn
  · exact hf.trans (h.blank hn).2

/-- **A fragment that is gone** leaves the phase as it was, or one that tells of nothing open. -/
theorem closed (h : a.Phased) {f : OpenFragment} (hf : f.isEmpty = true) (n : Nat) {phase : Phase}
    (hp : phase = a.phase ∨ phase = .boundary ∨ phase = .finishing) :
    Phased { a with fragment := f, nextSequence := n, phase := phase } := by
  have hopened : f.isEmpty = false → phase = .accumulating := fun hn => by
    rw [hn] at hf
    cases hf
  have hblank : a.clock.offset = none → a.configured = false ∧ f.isEmpty = true := fun hn => ⟨(h.blank hn).1, hf⟩
  rcases hp with rfl | rfl | rfl
  · exact ⟨hopened, h.unset, h.begun, h.ready, h.paced, hblank⟩
  · exact ⟨hopened, nofun, nofun, nofun, h.paced, hblank⟩
  · exact ⟨hopened, nofun, nofun, nofun, h.paced, hblank⟩

theorem close (h : a.Phased) (slot : Slot) : (a.close slot).state.Phased := by
  rcases a.close_cases slot with ⟨-, hc⟩ | ⟨-, -, hstate, -⟩ | ⟨-, -, hstate, -⟩
  · rw [hc]
    exact h
  · rw [hstate]
    exact h.closed rfl a.nextSequence (.inl rfl)
  · rw [hstate]
    exact h.closed rfl (a.nextSequence + 1) (.inr (.inl rfl))

/-- A flush goes back to the phase that the timing and the first frame ask for. -/
theorem flush (h : a.Phased) : a.flush.Phased := by
  have hblank : a.flush.clock.offset = none → a.flush.configured = false ∧ a.flush.fragment.isEmpty = true :=
    fun hn => ⟨(h.blank hn).1, rfl⟩
  cases hc : a.configured with
  | true =>
    have hphase : a.flush.phase = .ready := by rw [Assembly.flush, hc, if_pos rfl]
    refine ⟨nofun, ?_, ?_, fun _ => hc, h.paced, hblank⟩ <;> rw [hphase] <;> nofun
  | false =>
    cases ho : a.clock.offset with
    | none =>
      have hphase : a.flush.phase = .uninitialized := by
        rw [Assembly.flush, hc, ho]
        rfl
      refine ⟨nofun, fun _ => ho, ?_, ?_, h.paced, hblank⟩ <;> rw [hphase] <;> nofun
    | some first =>
      have hphase : a.flush.phase = .configuring := by
        rw [Assembly.flush, hc, ho]
        rfl
      have hsome : a.flush.clock.offset.isSome = true := by
        show a.clock.offset.isSome = true
        rw [ho]
        rfl
      refine of_offset hsome ?_ nofun (fun _ => hc) ?_ h.paced <;> rw [hphase] <;> nofun

end Phased

/-- With a first frame, what appending keeps of the phase. -/
theorem phased_appendable : Appendable fun a => a.Phased ∧ a.clock.offset.isSome = true where
  retime h hf := ⟨h.1.retime hf, h.2⟩
  push p h := ⟨h.1.push h.2 p, h.2⟩
  cut {a} slot p h := by
    have ho : (a.close slot).state.clock.offset.isSome = true := by
      obtain ⟨f, n, phase, hstate, -⟩ := a.close_state slot
      rw [hstate]
      exact h.2
    exact ⟨(h.1.close slot).push ho p, ho⟩

theorem buffers_push (a : Assembly) (p : Pending) : (a.push p).Buffers := fun _ => OpenFragment.isEmpty_push _ _ _

theorem buffers_appendable : Appendable Buffers where
  retime h hf hp := hf.trans (h hp)
  push p _ := buffers_push _ p
  cut _ p _ := buffers_push _ p

/-- A fragment that fits its slot, or was empty, leaves the phase right. -/
theorem Buffers.close (h : a.Buffers) {slot : Slot} (hfit : ¬(a.close slot).Overflows) :
    (a.close slot).state.Buffers := by
  rcases a.close_cases slot with ⟨-, hc⟩ | ⟨-, hover, -⟩ | ⟨-, -, hstate, -⟩
  · rw [hc]
    exact h
  · exact absurd hover hfit
  · rw [hstate]
    nofun

end Assembly

/-! ## Appending -/

section
variable {P : Assembly → Prop} (hP : Assembly.Appendable P)
include hP

namespace AudioStream

/-- Whatever becomes of the fragment before a jump, a frame is appended next. -/
theorem resynchronize_push {a : Assembly} (h : P a) (v : AudioStream) (p : Pending) (slot : Slot) :
    P ((resynchronize a v p.start slot).state.1.push p) := by
  rcases resynchronize_cases a v p.start slot with ⟨-, he⟩ | ⟨-, hn, ⟨-, he⟩ | ⟨-, f, hf, he⟩ | ⟨-, -, he⟩⟩ <;> rw [he]
  · exact hP.push p h
  · exact hP.cut slot p h
  · obtain ⟨before, last, gap, hsamples, -, rfl⟩ := OpenFragment.exists_of_bridge? hf
    refine hP.push p (hP.retime h ?_)
    rw [hn]
    exact List.isEmpty_eq_false_iff.2 (List.append_ne_nil_of_right_ne_nil _ (List.cons_ne_nil _ _))
  · exact hP.push p h

/-- **An append ends with the frame, or with a close** whose result it answers. -/
theorem append_ends {a : Assembly} (h : P { a with pending := none }) (v : AudioStream) (slot : Slot) :
    P (append a v slot).state.1 ∨ ∃ b later, P b ∧ (append a v slot).state.1 = (b.close later).state ∧
      (append a v slot).result = (b.close later).result := by
  unfold append
  cases hp : a.pending with
  | none =>
    left
    rwa [← hp] at h
  | some p =>
    have hpushed := resynchronize_push hP h v p slot
    simp only
    generalize resynchronize { a with pending := none } v p.start slot = cut at hpushed ⊢
    split
    · split
      · exact .inr ⟨_, cut.slot, hpushed, rfl, rfl⟩
      · exact .inl hpushed
    · exact .inl hpushed

theorem absorb_ends {a : Assembly} (h : P { a with pending := none }) : P (absorb a) := by
  unfold absorb
  cases hp : a.pending with
  | none => rwa [← hp] at h
  | some p => exact hP.push p h

end AudioStream

namespace VideoStream

theorem closeLast_retimes {a : Assembly} (h : P a) (v : VideoStream) (next : Nat) : P (closeLast a v next) :=
  hP.retime h (OpenFragment.isEmpty_setLast _ _)

theorem appendFrame_ends {a : Assembly} (h : P a) (v : VideoStream) (p : Pending) (slot : Slot) :
    P (appendFrame a v p slot).state.1 := by
  have hlast := closeLast_retimes hP h v p.start
  rcases appendFrame_cases a v p slot with ⟨-, -, he⟩ | ⟨-, -, ⟨-, hstate, -⟩ | ⟨-, -, -, hstate, -⟩⟩
  · rw [he]
    exact h
  · rw [hstate]
    exact hP.push p hlast
  · rw [hstate]
    exact hP.cut slot p hlast

theorem appendAll_ends : ∀ (queue : List Pending) (acc : Outcome (Assembly × VideoStream)), P acc.state.1 →
    P (appendAll queue acc).state.1
  | [], _, h => h
  | p :: queue, acc, h => appendAll_ends queue (appendNext acc p) (appendFrame_ends hP h acc.state.2 p acc.slot)

theorem absorbFrame_ends {a : Assembly} (h : P a) (v : VideoStream) (p : Pending) : P (absorbFrame a v p).1 := by
  unfold absorbFrame
  split
  · exact h
  · exact hP.push p (closeLast_retimes hP h v p.start)

theorem absorbAll_ends : ∀ (queue : List Pending) (a : Assembly) (v : VideoStream), P a →
    P (queue.foldl (fun (a, v) p => absorbFrame a v p) (a, v)).1
  | [], _, _, h => h
  | p :: queue, _, v, h => absorbAll_ends queue _ _ (absorbFrame_ends hP h v p)

end VideoStream

namespace Segmenter

variable {s : Segmenter}

theorem append_ends (h : P { s.assembly with pending := none }) (hc : s.assembly.configured = true) (slot : Slot) :
    P (s.append slot).state.assembly ∨ ∃ b later, P b ∧ (s.append slot).state.assembly = (b.close later).state ∧
      (s.append slot).result = (b.close later).result := by
  obtain ⟨a, stream⟩ := s
  cases stream with
  | audio v =>
    rw [append_audio v slot hc]
    exact AudioStream.append_ends hP h v slot
  | video v =>
    rw [append_video v slot hc]
    exact .inl (VideoStream.appendAll_ends hP (VideoStream.queue a v)
      ⟨.ok false, ({ a with pending := none }, { v with preroll := [] }), slot⟩ h)

theorem absorb_ends (h : P { s.assembly with pending := none }) : P s.absorb.assembly := by
  obtain ⟨a, stream⟩ := s
  cases stream with
  | audio v => exact AudioStream.absorb_ends hP h
  | video v =>
    exact VideoStream.absorbAll_ends hP (VideoStream.queue a v) { a with pending := none } { v with preroll := [] } h

end Segmenter
end

/-! ## Segmenters -/

namespace Segmenter

variable {s g : Segmenter}

theorem absorb_of_waiting (h : s.waiting = []) : s.absorb.assembly = { s.assembly with pending := none } := by
  obtain ⟨a, stream⟩ := s
  cases stream with
  | audio v =>
    have hp : a.pending = none := Option.toList_eq_nil_iff.1 h
    show AudioStream.absorb a = _
    unfold AudioStream.absorb
    rw [hp]
    exact congrArg (fun pending => { a with pending := pending }) hp
  | video v =>
    have hq : VideoStream.queue a v = [] := h
    show (VideoStream.absorb a v).1 = _
    unfold VideoStream.absorb
    rw [hq]
    rfl

/-- **A frame that makes a sample is accepted**, and put up for appending; any other that is taken leaves the assembly
and what waits alone. -/
theorem manage_accepts {frame : Frame} {isNew : Bool} (h : s.manage frame = .ok (isNew, g)) :
    (frame.sample? = none ∧ g.assembly = s.assembly ∧ g.waiting = s.waiting) ∨
    (frame.sample?.isSome = true ∧
      ∃ pending, g.assembly = { (s.assembly.accept frame.pts).1 with pending := pending }) := by
  rcases manage_cases h with ⟨a, v, f, b, w, rfl, rfl, hm, rfl⟩ | ⟨a, v, f, b, w, rfl, rfl, hm, rfl⟩
  · obtain ⟨data, -, hsample, -⟩ := AudioStream.manage_ok hm
    refine .inr ⟨by rw [hsample]; rfl, b.pending, ?_⟩
    unfold AudioStream.manage at hm
    split at hm
    · cases hm
    · split at hm <;> cases hm
      rfl
  · rcases VideoStream.manage_ok hm with ⟨hnone, rfl, hpreroll⟩ | ⟨p, -, -, hsample, -, -⟩
    · exact .inl ⟨hnone, rfl, congrArg (· ++ b.pending.toList) hpreroll⟩
    · have hcoded : (AnnexB.split f.data).any VideoStream.isCoded = true := by
        by_contra hc
        simp [Frame.sample?, hc] at hsample
      refine .inr ⟨by rw [hsample]; rfl, b.pending, ?_⟩
      unfold VideoStream.manage at hm
      simp only [hcoded, Bool.not_true, Bool.false_eq_true, if_false] at hm
      split at hm
      · cases hm
      · cases hm
        obtain ⟨q, hkept, -⟩ := VideoStream.keepWaiting_spec (a.accept f.pts).1 _
        rw [hkept]
        rfl

/-- **The endings of `finish`**: the slot is held, what was open does not fit it, or nothing is open any more. -/
theorem finish_ends (s : Segmenter) (slot : Slot) :
    (s.finish slot).state = s ∨
    ((s.finish slot).Overflows ∧
      (s.finish slot).state = { s.absorb with assembly := (s.absorb.assembly.close slot).state }) ∨
    ∃ f n, f.isEmpty = true ∧ (s.finish slot).state = { s.absorb with assembly :=
      { s.absorb.assembly with fragment := f, nextSequence := n, phase := .finishing } } := by
  unfold finish
  cases slot.isEmpty with
  | false => exact .inl rfl
  | true =>
    right
    simp only [Bool.not_true, Bool.false_eq_true, if_false]
    rcases s.absorb.assembly.close_cases slot with
      ⟨he, hc⟩ | ⟨-, ⟨length, capacity, hover⟩, -⟩ | ⟨-, hresult, hstate, -⟩
    · rw [hc]
      exact .inr ⟨_, _, he, rfl⟩
    · simp only [hover]
      exact .inl ⟨⟨length, capacity, rfl⟩, trivial⟩
    · simp only [hresult, hstate]
      exact .inr ⟨.empty, _, rfl, rfl⟩

/-- Whether a segmenter's phase is right, and nothing waits in one that has no first frame. -/
structure InPhase (s : Segmenter) : Prop where
  phased : s.assembly.Phased
  grounded : s.Grounded
  idle : s.assembly.clock.offset = none → s.waiting = []

theorem inPhase_start (kind : Kind) (plan : SegmenterPlan) : (start kind plan).InPhase := by
  refine ⟨?_, grounded_start kind plan, fun _ => ?_⟩
  · cases kind <;> exact Assembly.Phased.start plan
  · cases kind <;> rfl

/-- With a first frame, the assembly is all that counts. -/
theorem InPhase.of_offset (h : s.assembly.Phased) (ho : s.assembly.clock.offset.isSome = true) : s.InPhase :=
  ⟨h, .of_offset ho, fun hn => by
    rw [hn] at ho
    cases ho⟩

theorem InPhase.relabelled (h : s.InPhase) (hg : s.Relabelled g) (hgrounded : g.Grounded) : g.InPhase := by
  obtain ⟨zero, metadata, bitrate, described, rfl⟩ := hg
  obtain ⟨⟨hopened, hunset, hbegun, hready, hpaced, hblank⟩, -, hidle⟩ := h
  refine ⟨⟨hopened, hunset, hbegun, hready, hpaced, hblank⟩, hgrounded, fun hn => ?_⟩
  obtain ⟨a, stream⟩ := s
  cases stream <;> exact hidle hn

theorem InPhase.manage (h : s.InPhase) {frame : Frame} {isNew : Bool} (hm : s.manage frame = .ok (isNew, g)) :
    g.InPhase := by
  have hgrounded := (keeps_manage hm).grounded h.grounded
  rcases manage_accepts hm with ⟨-, hassembly, hwaiting⟩ | ⟨hsample, pending, hassembly⟩
  · refine ⟨?_, hgrounded, fun hn => ?_⟩
    · rw [hassembly]
      exact h.phased
    · rw [hassembly] at hn
      rw [hwaiting]
      exact h.idle hn
  · refine .of_offset ?_ (Session.manage_offset hm hsample)
    rw [hassembly]
    exact (h.phased.accept frame.pts).staged pending

theorem InPhase.configure (h : s.InPhase) (hc : s.configure = .ok g) : g.InPhase := by
  cases ho : s.assembly.clock.offset with
  | none => exact absurd hc (configure_ne_ok (h.grounded ho).2.2)
  | some first =>
    have hsome : s.assembly.clock.offset.isSome = true := by
      rw [ho]
      rfl
    obtain ⟨ticks, hpos, rfl⟩ := configure_sets hc
    exact .of_offset (h.phased.configure hsome hpos) hsome

theorem InPhase.append (h : s.InPhase) (slot : Slot) : (s.append slot).state.InPhase := by
  cases hc : s.assembly.configured with
  | false =>
    rw [append_of_unconfigured hc]
    exact h
  | true =>
    have ho := h.grounded.offset hc
    obtain ⟨-, f, n, phase, hmoved⟩ := append_moved hc slot
    refine .of_offset ?_ (by rw [hmoved]; exact ho)
    have hends := append_ends Assembly.phased_appendable ⟨h.phased.staged none, ho⟩ hc slot
    -- appending may close once more behind the last frame
    rcases hends with hend | ⟨b, later, hb, hstate, -⟩
    · exact hend.1
    · rw [hstate]
      exact hb.1.close later

theorem InPhase.absorb (h : s.InPhase) : s.absorb.InPhase := by
  refine ⟨?_, s.keeps_absorb.grounded h.grounded, fun _ => s.absorb_stock.2⟩
  -- a track that was never configured can be finished too, so a first frame is not a matter of course here
  cases ho : s.assembly.clock.offset with
  | none =>
    rw [absorb_of_waiting (h.idle ho)]
    exact h.phased.staged none
  | some first => exact (absorb_ends Assembly.phased_appendable ⟨h.phased.staged none, by rw [ho]; rfl⟩).1

theorem InPhase.finish (h : s.InPhase) (slot : Slot) : (s.finish slot).state.InPhase := by
  have hgrounded := (s.keeps_finish slot).grounded h.grounded
  rcases s.finish_ends slot with he | ⟨-, he⟩ | ⟨f, n, hf, he⟩
  · rw [he]
    exact h
  · obtain ⟨f, n, phase, hstate, -⟩ := s.absorb.assembly.close_state slot
    rw [he] at hgrounded ⊢
    refine ⟨h.absorb.phased.close slot, hgrounded, fun _ => ?_⟩
    rw [hstate]
    exact s.absorb_stock.2
  · rw [he] at hgrounded ⊢
    exact ⟨h.absorb.phased.closed hf n (.inr (.inr rfl)), hgrounded, fun _ => s.absorb_stock.2⟩

theorem InPhase.flush (h : s.InPhase) : s.flush.InPhase := by
  refine ⟨h.phased.flush, s.keeps_flush.grounded h.grounded, fun hn => ?_⟩
  have hidle := h.idle hn
  rw [waiting_flush]
  obtain ⟨a, stream⟩ := s
  cases stream with
  | audio v => rfl
  | video v => exact (List.append_eq_nil_iff.1 hidle).1

theorem InPhase.setBitrate (h : s.InPhase) (bitrate : Nat) : (s.setBitrate bitrate).InPhase :=
  h.relabelled (s.relabelled_setBitrate bitrate) h.grounded

/-- **Every operation leaves the phase right.** -/
theorem inPhase_inherited : Inherited fun s g => s.InPhase → g.InPhase where
  refl _ h := h
  trans h h' hs := h' (h hs)
  manage hm h := h.manage hm
  configure hc h := h.configure hc
  describe s slot h := h.relabelled (s.relabelled_describe slot) ((s.keeps_describe slot).grounded h.grounded)
  append _ slot h := h.append slot
  finish _ slot h := h.finish slot
  flush _ h := h.flush
  setOrigin s origin h := h.relabelled (s.relabelled_setOrigin origin) ((s.keeps_setOrigin origin).grounded h.grounded)

end Segmenter

/-- **The phase of every track of a publisher is right**, whatever the operations. -/
theorem Presentation.run_inPhase (w : World) (settings : Settings) (ops : List Operation) :
    ((start settings).run w ops).Each Segmenter.InPhase :=
  run_each Segmenter.inPhase_inherited Segmenter.inPhase_start (fun _ bitrate h => h.setBitrate bitrate) w settings ops

/-! ## Runs -/

/-- The time stamps of the frames that were taken in a history. -/
def Moment.accepted (history : List Moment) : List Nanos :=
  history.flatMap fun
    | .taken frame _ => [frame.pts]
    | .configured | .finished => []

namespace Session

/-- The time stamps of the frames that a session accepted. -/
def accepted (s : Session) : List Nanos := Moment.accepted s.history

/-- **The first accepted frame sets the offset**, and no call moves it from then on. -/
theorem apply_offset (s : Session) (call : Call) : ∃ new, (s.apply call).accepted = s.accepted ++ new ∧
    (s.apply call).assembly.clock.offset = s.assembly.clock.offset.or new.head? := by
  -- a call that takes no frame leaves the offset as it is
  have quiet : ∀ {t : Session} {moments : List Moment}, t.history = s.history ++ moments →
      Moment.accepted moments = [] → t.assembly.clock.offset = s.assembly.clock.offset →
      ∃ new, t.accepted = s.accepted ++ new ∧
        t.assembly.clock.offset = s.assembly.clock.offset.or new.head? := fun {t _} hh hm ho => by
    refine ⟨[], ?_, by rw [ho, List.head?_nil, Option.or_none]⟩
    show Moment.accepted t.history = _
    rw [hh]
    exact List.flatMap_append.trans (congrArg (s.accepted ++ ·) hm)
  have same : s.history = s.history ++ [] := (List.append_nil _).symm
  cases call with
  | manage frame =>
    cases hm : s.segmenter.manage frame with
    | error e =>
      rw [apply_manage_error hm]
      exact quiet same rfl rfl
    | ok r =>
      obtain ⟨isNew, g⟩ := r
      rw [apply_manage_ok hm]
      rcases Segmenter.manage_accepts hm with ⟨hnone, hassembly, -⟩ | ⟨hsample, pending, hassembly⟩
      · rw [hnone]
        refine quiet rfl rfl ?_
        show g.assembly.clock.offset = s.segmenter.assembly.clock.offset
        rw [hassembly]
      · obtain ⟨origin, expected, hclock, -⟩ := s.segmenter.assembly.clock.accept_state frame.pts
        rw [if_pos hsample]
        refine ⟨[frame.pts], List.flatMap_append, ?_⟩
        show g.assembly.clock.offset = s.segmenter.assembly.clock.offset.or (some frame.pts)
        rw [hassembly]
        show (s.segmenter.assembly.clock.accept frame.pts).1.offset = _
        rw [hclock]
        cases s.segmenter.assembly.clock.offset <;> rfl
  | configure =>
    cases hc : s.segmenter.configure with
    | error lack =>
      rw [apply_configure_error hc]
      exact quiet same rfl rfl
    | ok g =>
      rw [apply_configure_ok hc]
      refine quiet rfl ?_ (Segmenter.CountsAs.configure hc).offset
      split <;> rfl
  | describe header => exact quiet same rfl (Segmenter.CountsAs.describe s.segmenter header).offset
  | append => exact quiet same rfl (Segmenter.CountsAs.append s.segmenter s.slot).offset
  | finish =>
    refine quiet rfl ?_ (Segmenter.CountsAs.finish s.segmenter s.slot).offset
    split <;> rfl
  | flush => exact quiet same rfl rfl
  | setOrigin origin =>
    obtain ⟨zero, metadata, bitrate, described, hg⟩ := s.segmenter.relabelled_setOrigin origin
    refine quiet same rfl ?_
    show (s.segmenter.setOrigin origin).2.assembly.clock.offset = s.segmenter.assembly.clock.offset
    rw [hg]
  | setBitrate | clear => exact quiet same rfl rfl

theorem runAmong_offset : ∀ (calls : List (Slot × Call)) (s : Session), ∃ new,
    (s.runAmong calls).accepted = s.accepted ++ new ∧
    (s.runAmong calls).assembly.clock.offset = s.assembly.clock.offset.or new.head?
  | [], s => ⟨[], (List.append_nil _).symm, Option.or_none.symm⟩
  | (slot, call) :: calls, s => by
    obtain ⟨new, haccepted, hoffset⟩ := (s.withSlot slot).apply_offset call
    obtain ⟨more, hmore, hlast⟩ := runAmong_offset calls ((s.withSlot slot).apply call)
    refine ⟨new ++ more, ?_, ?_⟩
    · rw [← List.append_assoc]
      exact hmore.trans (congrArg (· ++ more) haccepted)
    · rw [List.head?_append, ← Option.or_assoc]
      exact hlast.trans (congrArg (Option.or · more.head?) hoffset)

/-- Whether a call finds its slot too small for what it closes. -/
def Overflows (s : Session) : Call → Prop
  | .append => (s.segmenter.append s.slot).Overflows
  | .finish => (s.segmenter.finish s.slot).Overflows
  | _ => False

instance (s : Session) : ∀ call, Decidable (s.Overflows call)
  | .append | .finish => inferInstanceAs (Decidable (Outcome.Overflows _))
  | .manage _ | .configure | .describe _ | .flush | .setOrigin _ | .setBitrate _ | .clear =>
    inferInstanceAs (Decidable False)

/-- Whether no call of a run does. -/
def NoneOverflows : Session → List (Slot × Call) → Prop
  | _, [] => True
  | s, (slot, call) :: calls => ¬(s.withSlot slot).Overflows call ∧ NoneOverflows ((s.withSlot slot).apply call) calls

instance decidableNoneOverflows : ∀ (calls : List (Slot × Call)) (s : Session), Decidable (NoneOverflows s calls)
  | [], _ => .isTrue trivial
  | (slot, call) :: calls, s =>
    have := decidableNoneOverflows calls ((s.withSlot slot).apply call)
    inferInstanceAs (Decidable (_ ∧ _))

/-- **As long as nothing is lost**, samples are open in the phase that says so. -/
theorem apply_buffers {s : Session} {call : Call} (h : s.assembly.Buffers) (hfit : ¬s.Overflows call) :
    (s.apply call).assembly.Buffers := by
  have relabel : ∀ g : Segmenter, s.segmenter.Relabelled g → g.assembly.Buffers := fun g hg => by
    obtain ⟨zero, metadata, bitrate, described, rfl⟩ := hg
    exact h
  cases call with
  | manage frame =>
    cases hm : s.segmenter.manage frame with
    | error e =>
      rw [apply_manage_error hm]
      exact h
    | ok r =>
      obtain ⟨isNew, g⟩ := r
      rw [apply_manage_ok hm]
      show g.assembly.Buffers
      rcases Segmenter.manage_accepts hm with ⟨-, hassembly, -⟩ | ⟨-, pending, hassembly⟩ <;> rw [hassembly]
      · exact h
      · intro hp
        refine h ?_
        have hp : (if s.assembly.clock.offset.isNone then Phase.configuring else s.assembly.phase) = .accumulating := hp
        split at hp
        · cases hp
        · exact hp
  | configure =>
    cases hc : s.segmenter.configure with
    | error lack =>
      rw [apply_configure_error hc]
      exact h
    | ok g =>
      obtain ⟨ticks, -, rfl⟩ := Segmenter.configure_sets hc
      rw [apply_configure_ok hc]
      show Assembly.Buffers (s.segmenter.assembly.configure ticks)
      intro hp
      rcases s.segmenter.assembly.configure_phase ticks with ⟨-, hphase⟩ | ⟨-, -, hphase⟩ <;> rw [hphase] at hp
      · cases hp
      · exact h hp
  | describe header => exact relabel _ (s.segmenter.relabelled_describe header)
  | append =>
    show (s.segmenter.append s.slot).state.assembly.Buffers
    cases hc : s.segmenter.assembly.configured with
    | false =>
      rw [Segmenter.append_of_unconfigured hc]
      exact h
    | true =>
      rcases Segmenter.append_ends Assembly.buffers_appendable h hc s.slot with hend | ⟨b, later, hb, hstate, hresult⟩
      · exact hend
      · rw [hstate]
        exact hb.close fun ⟨length, capacity, hover⟩ => hfit ⟨length, capacity, hresult.trans hover⟩
  | finish =>
    show (s.segmenter.finish s.slot).state.assembly.Buffers
    rcases s.segmenter.finish_ends s.slot with he | ⟨hover, -⟩ | ⟨f, n, -, he⟩
    · rw [he]
      exact h
    · exact absurd hover hfit
    · rw [he]
      nofun
  | flush =>
    intro hp
    have hp : (if s.assembly.configured then Phase.ready
      else if s.assembly.clock.offset.isSome then .configuring else .uninitialized) = .accumulating := hp
    split at hp
    · cases hp
    · split at hp <;> cases hp
  | setOrigin origin => exact relabel _ (s.segmenter.relabelled_setOrigin origin)
  | setBitrate bitrate => exact relabel _ (s.segmenter.relabelled_setBitrate bitrate)
  | clear => exact h

theorem buffers_run : ∀ (calls : List (Slot × Call)) (s : Session), s.assembly.Buffers → s.NoneOverflows calls →
    (s.runAmong calls).assembly.Buffers
  | [], _, h, _ => h
  | (slot, call) :: calls, s, h, hfit =>
    buffers_run calls ((s.withSlot slot).apply call) (apply_buffers (s := s.withSlot slot) h hfit.1) hfit.2

/-- What the phase of a session's segmenter says about it and the frames that it accepted. -/
structure PhaseTells (s : Session) : Prop where
  uninitialized : s.assembly.phase = .uninitialized → s.accepted = []
  configuring : s.assembly.phase = .configuring →
    s.accepted ≠ [] ∧ s.assembly.configured = false ∧ s.assembly.fragment.isEmpty = true
  ready : s.assembly.phase = .ready → s.assembly.configured = true ∧ s.assembly.fragment.isEmpty = true
  boundary : s.assembly.phase = .boundary → s.assembly.fragment.isEmpty = true
  finishing : s.assembly.phase = .finishing → s.assembly.fragment.isEmpty = true
  accumulating : s.assembly.fragment.isEmpty = false → s.assembly.phase = .accumulating
  paced : s.assembly.configured = true → 0 < s.assembly.clock.frameTicks
  offset : s.assembly.clock.offset = s.accepted.head?

/-- A segmenter in phase whose offset is its first accepted frame's time stamp says what it should. -/
theorem PhaseTells.of_inPhase {s : Session} (h : s.segmenter.InPhase)
    (ho : s.assembly.clock.offset = s.accepted.head?) : s.PhaseTells where
  uninitialized hp := List.head?_eq_none_iff.1 (ho.symm.trans (h.phased.unset hp))
  configuring hp := by
    obtain ⟨hsome, hc⟩ := h.phased.begun hp
    refine ⟨fun hnone => ?_, hc, h.phased.isEmpty (by rw [show s.segmenter.assembly.phase = _ from hp]; nofun)⟩
    have hsome : s.assembly.clock.offset.isSome = true := hsome
    rw [ho, hnone] at hsome
    cases hsome
  ready hp := ⟨h.phased.ready hp, h.phased.isEmpty (by rw [show s.segmenter.assembly.phase = _ from hp]; nofun)⟩
  boundary hp := h.phased.isEmpty (by rw [show s.segmenter.assembly.phase = _ from hp]; nofun)
  finishing hp := h.phased.isEmpty (by rw [show s.segmenter.assembly.phase = _ from hp]; nofun)
  accumulating := h.phased.opened
  paced := h.phased.paced
  offset := ho

/-- **The phase of a segmenter of either kind tells what it should**, after any calls with any slots.  As long as no
slot was too small, the phase in which samples are open has some.  The offset is the time stamp of the first frame that
was accepted, and stays so whatever calls follow. -/
theorem phase_tells (kind : Kind) (plan : SegmenterPlan) (capacity : Nat) (calls : List (Slot × Call)) :
    let s := (start kind plan capacity).runAmong calls
    s.PhaseTells ∧
    ((start kind plan capacity).NoneOverflows calls → s.assembly.phase = .accumulating →
      s.assembly.fragment.isEmpty = false) ∧
    ∀ later pts, s.assembly.clock.offset = some pts → (s.runAmong later).assembly.clock.offset = some pts := by
  obtain ⟨new, haccepted, hoffset⟩ := runAmong_offset calls (start kind plan capacity)
  have hphase := runAmong_kept Segmenter.inPhase_inherited (fun _ bitrate h => h.setBitrate bitrate) calls
    (start kind plan capacity) (Segmenter.inPhase_start kind plan)
  have hbuffers : (start kind plan capacity).assembly.Buffers := by cases kind <;> nofun
  refine ⟨.of_inPhase hphase ?_, buffers_run calls _ hbuffers, fun later pts hs => ?_⟩
  · rw [hoffset, haccepted]
    rfl
  · obtain ⟨more, -, hlater⟩ := runAmong_offset later ((start kind plan capacity).runAmong calls)
    rw [hlater, hs]
    rfl

/-- Two pictures, of which the first waits until the second gives the track its timing. -/
def appendedPictures : List (Slot × Call) :=
  [(0, true), (400, false)].flatMap fun (ms, idr) =>
    [(.empty 4096, .manage (pictureAt ms idr)), (.empty 4096, .configure), (.empty 4096, .append)]

theorem phase_tells_pictures :
    let s := (start .video unevenPlan 0).runAmong appendedPictures
    (start .video unevenPlan 0).NoneOverflows appendedPictures ∧ s.assembly.phase = .accumulating ∧
    s.assembly.clock.offset = some 1000000000 ∧ s.PhaseTells ∧ s.assembly.fragment.isEmpty = false ∧
    ∀ later, (s.runAmong later).assembly.clock.offset = some 1000000000 := by
  have hfit : (start .video unevenPlan 0).NoneOverflows appendedPictures := by decide +kernel
  have hphase : ((start .video unevenPlan 0).runAmong appendedPictures).assembly.phase = .accumulating := by
    decide +kernel
  have hoffset : ((start .video unevenPlan 0).runAmong appendedPictures).assembly.clock.offset = some 1000000000 := by
    decide +kernel
  obtain ⟨htells, hopen, hkept⟩ := phase_tells .video unevenPlan 0 appendedPictures
  exact ⟨hfit, hphase, hoffset, htells, hopen hfit hphase, fun later => hkept later _ hoffset⟩

/-- A fragment that is lost to a slot too small for it leaves the phase as it was. -/
example :
    let s := (start .video unevenPlan 0).runAmong (appendedPictures ++ [(.empty 100, .finish)])
    s.assembly.phase = .accumulating ∧ s.assembly.fragment.isEmpty = true := by decide +kernel

end Session
end Packager

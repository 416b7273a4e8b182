import Packager.Proofs.VideoTimeline
/-!
# Proofs.WideGaps — a picture lasts until the next one, however far that is

Between taking a picture and appending it, the frame duration becomes the gap to the picture before.  So the gap that closes
the last sample is one frame duration, which the clock tolerates: in the order `manage`, `configure`, `append` no sample is
cut down to the frame duration from before (`lasts_until_next`).  A sample that is closed stays as it is until it is
emitted, since only the last one of the open fragment is ever touched (`carries_run`).
-/
namespace Packager

/-! ## The front of the open fragment -/

namespace OpenFragment

/-- Whether a fragment begins with some samples and has one more behind them, so that none of them is its last. -/
def Begins (f : OpenFragment) (samples : List Sample) : Prop := ∃ next rest, f.samples = samples ++ next :: rest

variable {f : OpenFragment} {samples : List Sample}

theorem Begins.isEmpty (h : f.Begins samples) : f.isEmpty = false := by
  obtain ⟨next, rest, hs⟩ := h
  rw [OpenFragment.isEmpty, hs]
  cases samples <;> rfl

theorem Begins.isPrefix (h : f.Begins samples) : samples <+: f.samples := by
  obtain ⟨next, rest, hs⟩ := h
  exact ⟨next :: rest, hs.symm⟩

theorem begins_push (h : samples <+: f.samples) (start : Nat) (s : Sample) : (f.push start s).Begins samples := by
  obtain ⟨rest, hs⟩ := h
  unfold Begins
  rw [samples_push, ← hs]
  cases rest with
  | nil => exact ⟨s, [], by rw [List.append_nil]⟩
  | cons next rest => exact ⟨next, rest ++ [s], by rw [List.append_assoc, List.cons_append]⟩

/-- **Giving the last sample a duration** touches none in front of it. -/
theorem Begins.setLast (h : f.Begins samples) (duration : Nat) : (f.setLast duration).Begins samples := by
  obtain ⟨next, rest, hs⟩ := h
  rcases f.setLast_cases duration with ⟨-, he⟩ | ⟨before, last, hlast, he⟩
  · exact ⟨next, rest, by rw [he, hs]⟩
  · rw [hlast] at hs
    rw [he]
    obtain ⟨rfl, -, -⟩ | ⟨rest', -, hbefore⟩ := eq_of_concat_eq hs
    · exact ⟨_, [], rfl⟩
    · refine ⟨next, rest' ++ [{ last with duration := .ofNat (min duration longest) }], ?_⟩
      show before ++ _ = _
      rw [hbefore, List.append_assoc, List.cons_append]

/-- Whether the last sample of a fragment is that of a picture. -/
def Ends (f : OpenFragment) (p : Pending) : Prop :=
  ∃ before sample, f.samples = before ++ [sample] ∧ sample.data = p.data ∧ sample.isSync = p.isSync

end OpenFragment

theorem Assembly.close_holds {a : Assembly} {slot : Slot} (hn : a.fragment.isEmpty = false)
    (hfit : ¬(a.close slot).Overflows) : (a.close slot).result = .ok true ∧ (a.close slot).slot.isEmpty = false ∧
      (a.close slot).slot.Holds a.segment := by
  rcases a.close_cases slot with ⟨he, -⟩ | ⟨-, hover, -⟩ | ⟨-, hresult, -, hholds, hheld, -⟩
  · rw [hn] at he
    cases he
  · exact absurd hover hfit
  · exact ⟨hresult, hheld, hholds⟩

namespace VideoStream

/-- Where samples are that were the front of the open fragment, after pictures were appended: there still, in the slot, or
lost with a fragment that did not fit. -/
def Bears (samples : List Sample) (out : Outcome (Assembly × VideoStream)) : Prop :=
  (out.result = .ok false ∧ out.state.1.fragment.Begins samples) ∨
  (out.result = .ok true ∧ out.slot.isEmpty = false ∧ ∃ f : Fragment, out.slot.Holds f ∧ samples <+: f.samples) ∨
  out.Overflows

variable {samples : List Sample}

theorem appendFrame_result (a : Assembly) (v : VideoStream) (p : Pending) (slot : Slot) :
    (∃ filled, (appendFrame a v p slot).result = .ok filled) ∨ (appendFrame a v p slot).Overflows := by
  rcases appendFrame_cases a v p slot with ⟨-, -, he⟩ | ⟨-, -, ⟨-, -, -, hresult⟩ | ⟨-, hfull, -, -, -, hresult⟩⟩
  · rw [he]
    exact .inl ⟨false, rfl⟩
  · exact .inl ⟨false, hresult⟩
  · by_cases hover : ((closeLast a v p.start).close slot).Overflows
    · obtain ⟨length, capacity, hover⟩ := hover
      exact .inr ⟨length, capacity, hresult.trans hover⟩
    · have hn := ((Assembly.isFull_iff _).1 hfull).1
      exact .inl ⟨true, hresult.trans (Assembly.close_holds hn hover).1⟩

/-- A picture comes behind what is closed for it, or that is cut. -/
theorem bears_of_closed {a : Assembly} {v : VideoStream} {p : Pending} (slot : Slot) (hn : a.fragment.isEmpty = false)
    (h : samples <+: (closeLast a v p.start).fragment.samples) :
    Bears samples (appendNext ⟨.ok false, (a, v), slot⟩ p) := by
  unfold appendNext
  dsimp only
  rcases appendFrame_cases a v p slot with ⟨he, -⟩ | ⟨-, -, ⟨-, hstate, -, hresult⟩ | ⟨-, hfull, -, -, hslot, hresult⟩⟩
  · rw [hn] at he
    cases he
  · refine .inl ⟨by rw [hresult]; rfl, ?_⟩
    dsimp only
    rw [hstate]
    exact OpenFragment.begins_push h p.start _
  · by_cases hover : ((closeLast a v p.start).close slot).Overflows
    · obtain ⟨length, capacity, hover⟩ := hover
      exact .inr (.inr ⟨length, capacity, by rw [hresult, hover]; rfl⟩)
    · obtain ⟨hclosed, hheld, hholds⟩ := Assembly.close_holds ((Assembly.isFull_iff _).1 hfull).1 hover
      rw [← hslot] at hheld hholds
      exact .inr (.inl ⟨by rw [hresult, hclosed]; rfl, hheld, _, hholds, h⟩)

theorem bears_appendNext {acc : Outcome (Assembly × VideoStream)} (h : Bears samples acc) (p : Pending) :
    Bears samples (appendNext acc p) := by
  obtain ⟨result, ⟨a, v⟩, slot⟩ := acc
  rcases h with ⟨hresult, hbegins⟩ | ⟨hresult, hheld, hholds⟩ | ⟨length, capacity, hover⟩
  · dsimp only at hresult hbegins
    subst hresult
    have hlast : (closeLast a v p.start).fragment.Begins samples := hbegins.setLast _
    exact bears_of_closed slot hbegins.isEmpty hlast.isPrefix
  · -- a slot that was filled is held
    dsimp only at hresult hheld hholds
    subst hresult
    have hsame := appendFrame_held a v p hheld
    unfold appendNext
    dsimp only
    rcases appendFrame_result a v p slot with ⟨filled, hresult⟩ | ⟨length, capacity, hover⟩
    · refine .inr (.inl ⟨by rw [hresult]; rfl, ?_⟩)
      dsimp only
      rw [hsame]
      exact ⟨hheld, hholds⟩
    · exact .inr (.inr ⟨length, capacity, by rw [hover]; rfl⟩)
  · dsimp only at hover
    subst hover
    unfold appendNext
    dsimp only
    rcases appendFrame_result a v p slot with ⟨filled, hresult⟩ | ⟨length', capacity', hover⟩
    · exact .inr (.inr ⟨length, capacity, by rw [hresult]; rfl⟩)
    · exact .inr (.inr ⟨length', capacity', by rw [hover]; rfl⟩)

theorem bears_appendAll : ∀ (queue : List Pending) (acc : Outcome (Assembly × VideoStream)), Bears samples acc →
    Bears samples (appendAll queue acc)
  | [], _, h => h
  | p :: queue, acc, h => bears_appendAll queue (appendNext acc p) (bears_appendNext h p)

theorem begins_absorbAll : ∀ (queue : List Pending) (a : Assembly) (v : VideoStream), a.fragment.Begins samples →
    (queue.foldl (fun (a, v) p => absorbFrame a v p) (a, v)).1.fragment.Begins samples
  | [], _, _, h => h
  | p :: queue, a, v, h => by
    refine begins_absorbAll queue (absorbFrame a v p).1 (absorbFrame a v p).2 ?_
    unfold absorbFrame
    rw [h.isEmpty]
    exact OpenFragment.begins_push (h.setLast _).isPrefix p.start _

end VideoStream

namespace Session

/-- Whether a call drops nothing: it does not flush, and what it closes fits the slot. -/
def Spares (s : Session) : Call → Prop
  | .append => ¬(s.segmenter.append s.slot).Overflows
  | .finish => ¬(s.segmenter.finish s.slot).Overflows
  | .flush => False
  | _ => True

instance (s : Session) : ∀ call, Decidable (s.Spares call)
  | .append | .finish => inferInstanceAs (Decidable (¬_))
  | .flush => inferInstanceAs (Decidable False)
  | .manage _ | .configure | .describe _ | .setOrigin _ | .setBitrate _ | .clear => inferInstanceAs (Decidable True)

/-- Whether samples are the front of the open fragment, or were emitted so in one of the slots behind `earlier`. -/
def Carries (earlier : List Slot) (samples : List Sample) (s : Session) : Prop :=
  s.segmenter.kind = .video ∧ ∃ slots, s.placed = earlier ++ slots ∧
    (s.assembly.fragment.Begins samples ∨ ∃ slot ∈ slots, ∃ f : Fragment, slot.Holds f ∧ samples <+: f.samples)

section
variable {earlier : List Slot} {samples : List Sample} {s : Session}

theorem carries_same {t : Session} (h : s.Carries earlier samples) (hk : t.segmenter.kind = s.segmenter.kind)
    (hf : t.assembly.fragment = s.assembly.fragment) (hp : t.placed = s.placed) : t.Carries earlier samples := by
  obtain ⟨hkind, slots, hplaced, hwhere⟩ := h
  exact ⟨hk.trans hkind, slots, hp.trans hplaced, by rwa [hf]⟩

/-- What appending bears is carried on. -/
theorem carries_of_bears {a : Assembly} {v : VideoStream} {slots : List Slot} (hs : s.segmenter = ⟨a, .video v⟩)
    (hc : a.configured = true) (hp : s.placed = earlier ++ slots)
    (h : VideoStream.Bears samples (VideoStream.append a v s.slot))
    (hr : s.Spares .append) : (s.apply .append).Carries earlier samples := by
  have he := Segmenter.append_video v s.slot hc
  rw [← hs] at he
  have hplaced : (s.apply .append).placed = earlier ++ (slots ++ (s.segmenter.append s.slot).made) := by
    rw [← List.append_assoc, ← hp]
    rfl
  refine ⟨(s.apply_fixed .append).1.trans (by rw [hs]; rfl), _, hplaced, ?_⟩
  rcases h with ⟨-, hfront⟩ | ⟨hresult, -, hholds⟩ | hover
  · refine .inl ?_
    show (s.segmenter.append s.slot).state.assembly.fragment.Begins samples
    rw [he]
    exact hfront
  · refine .inr ⟨(VideoStream.append a v s.slot).slot, List.mem_append_right _ ?_, hholds⟩
    rw [he, Outcome.made]
    dsimp only
    rw [hresult]
    exact List.mem_singleton_self _
  · unfold Spares at hr
    rw [he] at hr
    exact absurd hover hr

theorem carries_append (h : s.Carries earlier samples) (hr : s.Spares .append) :
    (s.apply .append).Carries earlier samples := by
  have whole := h
  obtain ⟨hkind, slots, hplaced, hbegins | ⟨slot, hslot, hholds⟩⟩ := h
  · cases hc : s.assembly.configured with
    | false =>
      have he : s.apply .append = { s with due := .manage } := by
        rw [apply, Segmenter.append_of_unconfigured hc, after, Outcome.made, List.append_nil]
      rw [he]
      exact carries_same whole rfl rfl rfl
    | true =>
      obtain ⟨a, v, hs⟩ := Segmenter.exists_video hkind
      rw [assembly, hs] at hc hbegins
      have hbears : VideoStream.Bears samples (VideoStream.append a v s.slot) :=
        VideoStream.bears_appendAll (VideoStream.queue a v) _ (.inl ⟨rfl, hbegins⟩)
      exact carries_of_bears hs hc hplaced hbears hr
  · refine ⟨(s.apply_fixed .append).1.trans hkind, slots ++ (s.segmenter.append s.slot).made, ?_, .inr ?_⟩
    · rw [← List.append_assoc, ← hplaced]
      rfl
    · exact ⟨slot, List.mem_append_left _ hslot, hholds⟩

theorem carries_finish (h : s.Carries earlier samples) (hr : s.Spares .finish) :
    (s.apply .finish).Carries earlier samples := by
  obtain ⟨hkind, slots, hplaced, hwhere⟩ := h
  have hplaced' : (s.apply .finish).placed = earlier ++ (slots ++ (s.segmenter.finish s.slot).made) := by
    rw [← List.append_assoc, ← hplaced]
    rfl
  refine ⟨(s.apply_fixed .finish).1.trans hkind, _, hplaced', ?_⟩
  rcases hwhere with hbegins | ⟨slot, hslot, hholds⟩
  · rcases s.segmenter.finish_cases s.slot with ⟨-, he⟩ | ⟨-, hresult, hslot, -⟩
    · refine .inl ?_
      show (s.segmenter.finish s.slot).state.assembly.fragment.Begins samples
      rw [he]
      exact hbegins
    · have hfront : s.segmenter.absorb.assembly.fragment.Begins samples := by
        obtain ⟨a, v, hs⟩ := Segmenter.exists_video hkind
        rw [assembly, hs] at hbegins
        rw [hs]
        exact VideoStream.begins_absorbAll (VideoStream.queue a v) _ _ hbegins
      have hfit : ¬(s.segmenter.absorb.assembly.close s.slot).Overflows := by
        unfold Spares Outcome.Overflows at hr
        rw [hresult] at hr
        exact hr
      obtain ⟨hclosed, -, hholds⟩ := Assembly.close_holds hfront.isEmpty hfit
      refine .inr ⟨_, List.mem_append_right _ ?_, _, hholds, hfront.isPrefix⟩
      rw [Outcome.made_congr hresult hslot, Outcome.made, hclosed]
      exact List.mem_singleton_self _
  · exact .inr ⟨slot, List.mem_append_left _ hslot, hholds⟩

/-- **What is closed stays as it is**, in the open fragment or where it was emitted. -/
theorem carries_apply (h : s.Carries earlier samples) (call : Call) (hr : s.Spares call) :
    (s.apply call).Carries earlier samples := by
  cases call with
  | manage frame =>
    cases hm : s.segmenter.manage frame with
    | error e =>
      rw [apply_manage_error hm]
      exact h
    | ok r =>
      obtain ⟨hkind, clock, pending, phase, hstate⟩ := Segmenter.manage_state hm
      rw [apply_manage_ok hm]
      have hfragment := congrArg Assembly.fragment hstate
      exact carries_same h hkind hfragment rfl
  | configure =>
    cases hc : s.segmenter.configure with
    | error lack =>
      rw [apply_configure_error hc]
      exact h
    | ok g =>
      obtain ⟨ticks, phase, rfl⟩ := Segmenter.configure_state hc
      rw [apply_configure_ok hc]
      exact carries_same h rfl rfl rfl
  | describe header =>
    obtain ⟨hkind, hfragment, -⟩ := s.segmenter.describe_cases header
    exact carries_same h hkind hfragment rfl
  | append => exact carries_append h hr
  | finish => exact carries_finish h hr
  | flush => exact hr.elim
  | setOrigin origin =>
    obtain ⟨zero, metadata, bitrate, described, hstate⟩ := s.segmenter.relabelled_setOrigin origin
    refine carries_same h (s.apply_fixed (.setOrigin origin)).1 ?_ rfl
    show (s.segmenter.setOrigin origin).2.assembly.fragment = _
    rw [hstate]
    rfl
  | setBitrate bitrate => exact carries_same h rfl rfl rfl
  | clear => exact carries_same h rfl rfl rfl

theorem carries_run (calls : List Call) (s : Session) (h : s.Carries earlier samples) (hf : Follows Spares s calls) :
    (s.run calls).Carries earlier samples :=
  have step : ∀ (t : Session) (call : Call), t.Carries earlier samples → t.Spares call →
      (t.apply call).Carries earlier samples := fun _ call h hr => carries_apply h call hr
  run_invariant step calls s hf h

end

end Session

/-! ## The picture before -/

namespace VideoStream

/-- **Once the timing is known it stays known.** -/
theorem configure_again {a : Assembly} {v : VideoStream} {last previous : Nat} (hk : v.Known)
    (hlast : v.lastTicks = some last) (hprevious : v.previousTicks = some previous) (hpos : 0 < a.clock.frameTicks) :
    configure a v = .ok (a.configure (if previous < last then last - previous else a.clock.frameTicks)) := by
  by_cases hlt : previous < last
  · rw [if_pos hlt]
    exact configure_of_known a hk hlast hprevious hlt
  · obtain ⟨hsps, hpps, hwidth, hheight⟩ := hk
    unfold configure
    rw [if_neg (by simpa using Option.isSome_iff_ne_none.1 hsps), if_neg (by simpa using Option.isSome_iff_ne_none.1 hpps),
      if_neg (not_or.2 ⟨hwidth, hheight⟩), hlast, hprevious]
    simp only [if_neg hlt, if_neg (Nat.ne_of_gt hpos)]

/-- Appending ends with the last picture, unless nothing is open. -/
theorem ends_appendAll (pictures : List Pending) (last : Pending) (acc : Outcome (Assembly × VideoStream)) :
    let out := appendAll (pictures ++ [last]) acc
    out.state.1.fragment.isEmpty = false → out.state.2.lastStart = last.start ∧ out.state.1.fragment.Ends last := by
  intro out hn
  have hout : out = appendNext (appendAll pictures acc) last := by
    show appendAll (pictures ++ [last]) acc = _
    unfold appendAll
    rw [List.foldl_append]
    rfl
  rw [hout] at hn ⊢
  generalize appendAll pictures acc = before at hn ⊢
  unfold appendNext at hn ⊢
  dsimp only at hn ⊢
  have hpushed : ∀ b : Assembly, (b.push last).fragment.Ends last := fun b =>
    ⟨_, _, OpenFragment.samples_push _ _ _, rfl, rfl⟩
  rcases appendFrame_cases before.state.1 before.state.2 last before.slot with
    ⟨hempty, -, he⟩ | ⟨-, hstream, ⟨-, hstate, -⟩ | ⟨-, -, -, hstate, -⟩⟩
  · rw [he, hempty] at hn
    cases hn
  · rw [hstream, hstate]
    exact ⟨rfl, hpushed _⟩
  · rw [hstream, hstate]
    exact ⟨rfl, hpushed _⟩

/-- What a video track is like when `recent` is the last picture, unless that was finished or flushed since: it is the last
that waits, or the last sample of the open fragment. -/
structure Recent (recent : Option Pending) (due : Due) (a : Assembly) (v : VideoStream) : Prop where
  tolerance : 1 ≤ a.clock.tolerance
  ready : a.configured = true →
    v.Known ∧ 0 < a.clock.frameTicks ∧ v.lastTicks.isSome = true ∧ v.previousTicks.isSome = true
  settled : a.configured = true → due = .manage → queue a v = []
  appendable : due = .append → a.configured = true
  early : a.configured = false → a.fragment.isEmpty = true
  last : ∀ p ∈ recent, v.lastTicks = some p.start ∧
    ((∃ pictures, queue a v = pictures ++ [p]) ∨
     queue a v = [] ∧ (a.fragment.isEmpty = false → v.lastStart = p.start ∧ a.fragment.Ends p))

namespace Recent

variable {recent : Option Pending} {due : Due} {a b : Assembly} {v w : VideoStream}

theorem start (plan : SegmenterPlan) : Recent none .manage (.start plan) .start :=
  ⟨Nat.le_max_right _ _, nofun, nofun, nofun, fun _ => rfl, nofun⟩

theorem manage {f : VideoFrame} {isNew : Bool} (h : Recent recent .manage a v)
    (hm : VideoStream.manage a v f = .ok (isNew, b, w)) :
    Recent (((Frame.video f).sample?.map fun sample => ⟨b.clock.ticksAt f.pts, sample.1, sample.2⟩) <|> recent)
      .configure b w := by
  rcases VideoStream.manage_taken hm with ⟨hnone, rfl, sps, pps, rfl, hknown⟩ |
    ⟨data, isSync, phase, hsample, rfl, hfollows, hpreroll⟩
  · rw [hnone]
    refine ⟨h.tolerance, fun hc => ?_, nofun, nofun, h.early, h.last⟩
    obtain ⟨hk, hrest⟩ := h.ready hc
    exact ⟨hknown hk, hrest⟩
  · obtain ⟨origin, expected, hclock, -⟩ := a.clock.accept_state f.pts
    rw [hsample]
    refine ⟨?_, fun hc => ?_, nofun, nofun, h.early, fun p hp => ?_⟩
    · rw [hclock]
      exact h.tolerance
    · obtain ⟨hk, hpos, hlast, hprevious⟩ := h.ready hc
      rw [hclock, hfollows.last, hfollows.previous]
      exact ⟨hfollows.known hk, hpos, rfl, hlast⟩
    · cases hp
      exact ⟨hfollows.last, .inl ⟨w.preroll, rfl⟩⟩

theorem configure (h : Recent recent due a v) (hc : VideoStream.configure a v = .ok b) : Recent recent .append b v := by
  have hpos := frameTicks_configure hc
  obtain ⟨hk, last, previous, hlast, hprevious, rfl⟩ := configure_ok hc
  exact ⟨h.tolerance, fun _ => ⟨hk, hpos, by rw [hlast]; rfl, by rw [hprevious]; rfl⟩, nofun, fun _ => rfl, nofun, h.last⟩

theorem unconfigured {lack : Lack} (h : Recent recent due a v) (hc : VideoStream.configure a v = .error lack) :
    Recent recent .manage a v := by
  have hnot : a.configured = false := by
    rw [← Bool.not_eq_true]
    intro hready
    obtain ⟨hk, hpos, hlast, hprevious⟩ := h.ready hready
    obtain ⟨last, hlast⟩ := Option.isSome_iff_exists.1 hlast
    obtain ⟨previous, hprevious⟩ := Option.isSome_iff_exists.1 hprevious
    rw [configure_again hk hlast hprevious hpos] at hc
    cases hc
  refine ⟨h.tolerance, h.ready, fun hready => ?_, nofun, h.early, h.last⟩
  rw [hnot] at hready
  cases hready

theorem append (h : Recent recent due a v) (hc : a.configured = true) (slot : Slot) :
    Recent recent .manage (VideoStream.append a v slot).state.1 (VideoStream.append a v slot).state.2 := by
  obtain ⟨⟨f, n, phase, hstate⟩, hpreroll⟩ := append_moved a v slot
  obtain ⟨start, hstream⟩ : ∃ start, (VideoStream.append a v slot).state.2 =
      { v with preroll := [], lastStart := start } := appendAll_stream (queue a v) _
  have hqueue : queue (VideoStream.append a v slot).state.1 (VideoStream.append a v slot).state.2 = [] := by
    unfold queue
    rw [hpreroll, hstate]
    rfl
  refine ⟨?_, fun _ => ?_, fun _ _ => hqueue, nofun, fun hn => ?_, fun p hp => ?_⟩
  · rw [hstate]
    exact h.tolerance
  · rw [hstate, hstream]
    exact h.ready hc
  · rw [hstate] at hn
    exact absurd hc (by rw [hn]; exact Bool.false_ne_true)
  · obtain ⟨hlast, hwhere⟩ := h.last p hp
    refine ⟨by rw [hstream]; exact hlast, .inr ⟨hqueue, ?_⟩⟩
    rcases hwhere with ⟨pictures, hpictures⟩ | ⟨hnone, hopen⟩
    · unfold VideoStream.append
      rw [hpictures]
      exact ends_appendAll pictures p _
    · unfold VideoStream.append
      rw [hnone]
      exact hopen

/-- Closing what was open leaves no picture to go back to. -/
theorem closed (h : Recent recent due a v) {f : OpenFragment} (hf : f.isEmpty = true) (start n : Nat) (phase : Phase) :
    Recent none .manage { a with pending := none, fragment := f, nextSequence := n, phase := phase }
      { v with preroll := [], lastStart := start } :=
  ⟨h.tolerance, h.ready, fun _ _ => rfl, nofun, fun _ => hf, nofun⟩

theorem flush (h : Recent recent .manage a v) : Recent none .manage a.flush v := by
  refine ⟨h.tolerance, h.ready, fun hc hdue => ?_, nofun, fun _ => rfl, nofun⟩
  obtain ⟨hpreroll, -⟩ := List.append_eq_nil_iff.1 (h.settled hc hdue)
  unfold queue
  rw [hpreroll]
  rfl

end Recent

/-- The state while a picture waits at tick `next` to close the last sample of the open fragment, which started at tick
`last`, with `ticks` as the frame duration from before. -/
structure Closing (before : List Sample) (sample : Sample) (last next ticks : Nat) (due : Due) (a : Assembly)
    (v : VideoStream) : Prop where
  samples : a.fragment.samples = before ++ [sample]
  configured : a.configured = true
  tolerance : 1 ≤ a.clock.tolerance
  waiting : ∃ p, queue a v = [p] ∧ p.start = next
  lastStart : v.lastStart = last
  pace : match due with
    | .manage => False
    | .configure =>
      v.Known ∧ v.lastTicks = some next ∧ v.previousTicks = some last ∧ a.clock.frameTicks = ticks ∧ 0 < ticks
    | .append => a.clock.frameTicks = if last < next then next - last else ticks

end VideoStream

/-- A sample that lasts for some ticks, as far as it can hold them. -/
def Sample.lasting (sample : Sample) (ticks : Nat) : Sample :=
  { sample with duration := .ofNat (min ticks OpenFragment.longest) }

namespace VideoStream

variable {before : List Sample} {sample : Sample} {last next ticks : Nat} {due : Due} {a b : Assembly} {v : VideoStream}

theorem Closing.configure (h : Closing before sample last next ticks .configure a v) :
    ∃ b, VideoStream.configure a v = .ok b ∧ Closing before sample last next ticks .append b v := by
  obtain ⟨hk, hlast, hprevious, rfl, hpos⟩ := h.pace
  exact ⟨_, configure_again hk hlast hprevious hpos, h.samples, rfl, h.tolerance, h.waiting, h.lastStart, rfl⟩

/-- **The gap is tolerated**, since by now it is the frame duration. -/
theorem Closing.sampleDuration (h : Closing before sample last next ticks .append a v) :
    sampleDuration a.clock v.lastStart next = if last < next then next - last else ticks := by
  have hpace : a.clock.frameTicks = if last < next then next - last else ticks := h.pace
  rw [h.lastStart]
  by_cases hlt : last < next
  · rw [if_pos hlt] at hpace ⊢
    refine sampleDuration_of_lt hlt ?_
    rw [hpace]
    exact Nat.le_mul_of_pos_right _ h.tolerance
  · rw [if_neg hlt] at hpace ⊢
    unfold VideoStream.sampleDuration
    simp only [Nat.sub_eq_zero_of_le (Nat.le_of_not_lt hlt), true_or, if_true]
    exact hpace

/-- **Appending closes the last sample with the gap.** -/
theorem Closing.append (h : Closing before sample last next ticks .append a v) (slot : Slot) :
    Bears (before ++ [sample.lasting (if last < next then next - last else ticks)]) (VideoStream.append a v slot) := by
  obtain ⟨p, hqueue, rfl⟩ := h.waiting
  have hout : VideoStream.append a v slot =
      appendNext ⟨.ok false, ({ a with pending := none }, { v with preroll := [] }), slot⟩ p := by
    unfold VideoStream.append
    rw [hqueue]
    rfl
  have hclosed : (closeLast { a with pending := none } { v with preroll := [] } p.start).fragment.samples =
      before ++ [sample.lasting (if last < p.start then p.start - last else ticks)] := by
    rw [← h.sampleDuration]
    show (a.fragment.setLast (VideoStream.sampleDuration a.clock v.lastStart p.start)).samples = _
    unfold OpenFragment.setLast
    rw [h.samples, List.getLast?_concat, List.dropLast_concat]
    rfl
  have hn : a.fragment.isEmpty = false := by
    rw [OpenFragment.isEmpty, h.samples]
    cases before <;> rfl
  rw [hout]
  exact bears_of_closed slot hn (hclosed ▸ List.prefix_rfl)

end VideoStream

namespace Session

/-- What the caller of a video session promises: one frame after the other, each configured and, once the timing is known,
appended; tracks are finished or flushed between two frames. -/
def VideoInOrder (s : Session) : Call → Prop
  | .manage _ | .finish | .flush => s.due = .manage
  | .configure => s.due = .configure
  | .append => s.due = .append
  | .describe _ | .setOrigin _ | .setBitrate _ | .clear => True

instance (s : Session) : ∀ call, Decidable (s.VideoInOrder call)
  | .manage _ | .finish | .flush | .configure | .append => inferInstanceAs (Decidable (_ = _))
  | .describe _ | .setOrigin _ | .setBitrate _ | .clear => inferInstanceAs (Decidable True)

/-- The last picture after one more call, unless it was finished or flushed since. -/
def latest (s : Session) (known : Option Pending) : Call → Option Pending
  | .manage frame =>
    match s.segmenter.manage frame with
    | .ok (_, g) => (frame.sample?.map fun sample => ⟨g.assembly.clock.ticksAt frame.pts, sample.1, sample.2⟩) <|> known
    | .error _ => known
  | .finish => if s.slot.isEmpty then none else known
  | .flush => none
  | _ => known

theorem latest_of_taken {s : Session} {known : Option Pending} {frame : Frame} {isNew : Bool} {g : Segmenter}
    (h : s.segmenter.manage frame = .ok (isNew, g)) : s.latest known (.manage frame) =
      ((frame.sample?.map fun sample => ⟨g.assembly.clock.ticksAt frame.pts, sample.1, sample.2⟩) <|> known) := by
  unfold latest
  simp only [h]

/-- The last picture of a run: the tick at which it arrived and the sample that it makes. -/
def recent : Session → Option Pending → List Call → Option Pending
  | _, known, [] => known
  | s, known, call :: calls => (s.apply call).recent (s.latest known call) calls

/-- The invariant of a video session in order. -/
def Recalls (known : Option Pending) (s : Session) : Prop :=
  ∃ a v, s.segmenter = ⟨a, .video v⟩ ∧ VideoStream.Recent known s.due a v

section
variable {known : Option Pending} {s : Session}

theorem recalls_start (plan : SegmenterPlan) (capacity : Nat) : Recalls none (start .video plan capacity) :=
  ⟨.start plan, .start, rfl, .start plan⟩

theorem recalls_relabelled {g : Segmenter} (h : Recalls known s) (hg : s.segmenter.Relabelled g) :
    Recalls known { s with segmenter := g } := by
  obtain ⟨a, v, hs, hrecent⟩ := h
  obtain ⟨zero, metadata, bitrate, described, rfl⟩ := hg
  rw [hs]
  exact ⟨_, v, rfl, hrecent.tolerance, hrecent.ready, hrecent.settled, hrecent.appendable, hrecent.early, hrecent.last⟩

theorem recalls_manage {frame : Frame} (h : Recalls known s) (hdue : s.due = .manage) :
    Recalls (s.latest known (.manage frame)) (s.apply (.manage frame)) := by
  have whole := h
  obtain ⟨a, v, hs, hrecent⟩ := h
  cases hm : s.segmenter.manage frame with
  | error e =>
    have hlatest : s.latest known (.manage frame) = known := by
      unfold latest
      simp only [hm]
    rw [apply_manage_error hm, hlatest]
    exact whole
  | ok r =>
    obtain ⟨isNew, g⟩ := r
    rw [apply_manage_ok hm, latest_of_taken hm]
    rw [hs] at hm
    rw [hdue] at hrecent
    obtain ⟨a', v', f, b, w, heq, -⟩ | ⟨a', v', f, b, w, heq, rfl, hmv, rfl⟩ := Segmenter.manage_cases hm
    · cases heq
    · cases heq
      exact ⟨b, w, rfl, hrecent.manage hmv⟩

theorem recalls_configure (h : Recalls known s) : Recalls known (s.apply .configure) := by
  obtain ⟨a, v, hs, hrecent⟩ := h
  have he := Segmenter.configure_video a v
  rw [← hs] at he
  cases hc : VideoStream.configure a v with
  | error lack =>
    rw [hc] at he
    rw [apply_configure_error he]
    exact ⟨a, v, hs, hrecent.unconfigured hc⟩
  | ok b =>
    rw [hc] at he
    rw [apply_configure_ok he]
    exact ⟨b, v, rfl, hrecent.configure hc⟩

theorem recalls_append (h : Recalls known s) (hdue : s.due = .append) : Recalls known (s.apply .append) := by
  obtain ⟨a, v, hs, hrecent⟩ := h
  have hc := hrecent.appendable hdue
  have he := Segmenter.append_video v s.slot hc
  rw [← hs] at he
  refine ⟨_, _, by rw [apply, after, he], ?_⟩
  exact hrecent.append hc s.slot

theorem recalls_finish (h : Recalls known s) (hdue : s.due = .manage) :
    Recalls (s.latest known .finish) (s.apply .finish) := by
  obtain ⟨a, v, hs, hrecent⟩ := h
  unfold latest
  rcases s.segmenter.finish_cases s.slot with ⟨hheld, he⟩ | ⟨hfree, -, -, phase, hstate⟩
  · rw [hheld, apply, after, he]
    exact ⟨a, v, hs, hrecent⟩
  · obtain ⟨⟨f, n, phase', hmoved⟩, -⟩ := VideoStream.absorb_moved a v
    obtain ⟨start, hstream⟩ : ∃ start, (VideoStream.absorb a v).2 = { v with preroll := [], lastStart := start } :=
      VideoStream.absorbAll_stream (VideoStream.queue a v) { a with pending := none } { v with preroll := [] }
    obtain ⟨f', n', phase'', hclosed, hempty⟩ := (VideoStream.absorb a v).1.close_state s.slot
    have hsegmenter : (s.segmenter.finish s.slot).state = ⟨{ a with
        pending := none, fragment := f', nextSequence := n', phase := phase }, .video { v with
        preroll := [], lastStart := start }⟩ := by
      rw [hstate, hs]
      show Segmenter.mk { ((VideoStream.absorb a v).1.close s.slot).state with phase := phase }
        (.video (VideoStream.absorb a v).2) = _
      rw [hclosed, hmoved, hstream]
    rw [hfree, apply, after, hsegmenter]
    refine ⟨_, _, rfl, ?_⟩
    dsimp only
    rw [hdue]
    exact hrecent.closed hempty start n' phase

/-- **What every call in order keeps**: the last picture is the last sample of the open fragment, or waits. -/
theorem recalls_apply (h : Recalls known s) (call : Call) (hr : s.VideoInOrder call) :
    Recalls (s.latest known call) (s.apply call) := by
  cases call with
  | manage frame => exact recalls_manage h hr
  | configure => exact recalls_configure h
  | describe header => exact recalls_relabelled h (s.segmenter.relabelled_describe header)
  | append => exact recalls_append h hr
  | finish => exact recalls_finish h hr
  | flush =>
    obtain ⟨a, v, hs, hrecent⟩ := h
    have hdue : s.due = .manage := hr
    rw [hdue] at hrecent
    refine ⟨a.flush, v, by rw [apply, hs]; rfl, ?_⟩
    show VideoStream.Recent none s.due _ _
    rw [hdue]
    exact hrecent.flush
  | setOrigin origin => exact recalls_relabelled h (s.segmenter.relabelled_setOrigin origin)
  | setBitrate bitrate => exact recalls_relabelled h (s.segmenter.relabelled_setBitrate bitrate)
  | clear =>
    obtain ⟨a, v, hs, hrecent⟩ := h
    exact ⟨a, v, hs, hrecent⟩

theorem recalls_run : ∀ (calls : List Call) (s : Session) (known : Option Pending), Follows VideoInOrder s calls →
    Recalls known s → Recalls (s.recent known calls) (s.run calls)
  | [], _, _, _, h => h
  | call :: calls, s, known, hf, h =>
    recalls_run calls (s.apply call) (s.latest known call) hf.2 (recalls_apply h call hf.1)

/-- Whether a picture waits to close the last sample of the open fragment, and nothing was emitted since `earlier`. -/
def Closes (earlier : List Slot) (before : List Sample) (sample : Sample) (last next ticks : Nat) (s : Session) : Prop :=
  ∃ a v, s.segmenter = ⟨a, .video v⟩ ∧ s.placed = earlier ∧
    VideoStream.Closing before sample last next ticks s.due a v

variable {earlier : List Slot} {before : List Sample} {sample : Sample} {last next ticks : Nat}

theorem closes_relabelled {g : Segmenter} (h : Closes earlier before sample last next ticks s)
    (hg : s.segmenter.Relabelled g) : Closes earlier before sample last next ticks { s with segmenter := g } := by
  obtain ⟨a, v, hs, hplaced, hclosing⟩ := h
  obtain ⟨zero, metadata, bitrate, described, rfl⟩ := hg
  rw [hs]
  exact ⟨_, v, rfl, hplaced, hclosing.samples, hclosing.configured, hclosing.tolerance, hclosing.waiting,
    hclosing.lastStart, hclosing.pace⟩

/-- **A picture that is taken** behind another one waits to close its sample. -/
theorem closes_manage {frame : Frame} {last next : Pending} (h : Recalls (some last) s) (hdue : s.due = .manage)
    (hc : s.assembly.configured = true) (hn : s.assembly.fragment.isEmpty = false)
    (hnext : s.latest none (.manage frame) = some next) :
    ∃ before sample, s.assembly.fragment.samples = before ++ [sample] ∧ sample.data = last.data ∧
      sample.isSync = last.isSync ∧
      Closes s.placed before sample last.start next.start s.assembly.clock.frameTicks (s.apply (.manage frame)) := by
  obtain ⟨a, v, hs, hrecent⟩ := h
  rw [assembly, hs] at hc hn ⊢
  rw [hdue] at hrecent
  have hqueue := hrecent.settled hc rfl
  obtain ⟨hlast, ⟨pictures, hwaits⟩ | ⟨-, hopen⟩⟩ := hrecent.last last rfl
  · rw [hqueue] at hwaits
    cases pictures <;> cases hwaits
  · obtain ⟨hstart, before, sample, hsamples, hdata, hsync⟩ := hopen hn
    refine ⟨before, sample, hsamples, hdata, hsync, ?_⟩
    cases hm : s.segmenter.manage frame with
    | error e =>
      unfold latest at hnext
      simp only [hm] at hnext
      cases hnext
    | ok r =>
      obtain ⟨isNew, g⟩ := r
      rw [latest_of_taken hm] at hnext
      rw [apply_manage_ok hm]
      rw [hs] at hm
      obtain ⟨a', v', f, b, w, heq, -⟩ | ⟨a', v', f, b, w, heq, rfl, hmv, rfl⟩ := Segmenter.manage_cases hm
      · cases heq
      · cases heq
        obtain ⟨hnone, -⟩ | ⟨data, isSync, phase, hsample, rfl, hfollows, hpreroll⟩ := VideoStream.manage_taken hmv
        · rw [hnone] at hnext
          cases hnext
        · rw [hsample] at hnext
          cases hnext
          obtain ⟨origin, expected, hclock, -⟩ := a.clock.accept_state f.pts
          obtain ⟨hk, hpos, hsome, -⟩ := hrecent.ready hc
          obtain ⟨hnopreroll, hnopending⟩ := List.append_eq_nil_iff.1 hqueue
          have hempty : a.pending = none := by
            cases hp : a.pending with
            | none => rfl
            | some p =>
              rw [hp] at hnopending
              cases hnopending
          rw [hempty, hnopreroll] at hpreroll
          refine ⟨_, w, rfl, rfl, hsamples, hc, ?_, ⟨_, ?_, rfl⟩, hfollows.start.trans hstart, ?_⟩
          · rw [hclock]
            exact hrecent.tolerance
          · unfold VideoStream.queue
            rw [hpreroll]
            rfl
          · refine ⟨hfollows.known hk, hfollows.last, hfollows.previous.trans hlast, ?_, hpos⟩
            rw [hclock]

theorem carries_of_closes : ∀ (later : List Call) (s : Session), Closes earlier before sample last next ticks s →
    Follows (fun t call => t.VideoInOrder call ∧ t.Spares call) s later → .append ∈ later →
    (s.run later).Carries earlier (before ++ [sample.lasting (if last < next then next - last else ticks)])
  | [], _, _, _, hmem => absurd hmem List.not_mem_nil
  | call :: later, s, h, hf, hmem => by
    -- until the picture is appended it stays as it is
    have waits : call ≠ .append → Closes earlier before sample last next ticks (s.apply call) →
        (s.run (call :: later)).Carries earlier
          (before ++ [sample.lasting (if last < next then next - last else ticks)]) := fun hne hstill =>
      carries_of_closes later (s.apply call) hstill hf.2 ((List.mem_cons.1 hmem).resolve_left fun he => hne he.symm)
    have whole := h
    obtain ⟨a, v, hs, hplaced, hclosing⟩ := h
    have hdue : s.due ≠ .manage := by
      intro hdue
      rw [hdue] at hclosing
      exact hclosing.pace
    cases call with
    | manage frame => exact absurd hf.1.1 hdue
    | configure =>
      have hd : s.due = .configure := hf.1.1
      rw [hd] at hclosing
      obtain ⟨b, hb, hclosing'⟩ := hclosing.configure
      have he := Segmenter.configure_video a v
      rw [← hs, hb] at he
      refine waits nofun ?_
      rw [apply_configure_ok he]
      exact ⟨b, v, rfl, hplaced, hclosing'⟩
    | append =>
      have hd : s.due = .append := hf.1.1
      rw [hd] at hclosing
      have hcarries := carries_of_bears hs hclosing.configured (hplaced.trans (List.append_nil _).symm)
        (hclosing.append s.slot) hf.1.2
      exact carries_run later _ hcarries (hf.2.mono fun _ _ hr => hr.2)
    | describe header => exact waits nofun (closes_relabelled whole (s.segmenter.relabelled_describe header))
    | finish => exact absurd hf.1.1 hdue
    | flush => exact absurd hf.1.1 hdue
    | setOrigin origin => exact waits nofun (closes_relabelled whole (s.segmenter.relabelled_setOrigin origin))
    | setBitrate bitrate => exact waits nofun (closes_relabelled whole (s.segmenter.relabelled_setBitrate bitrate))
    | clear => exact waits nofun ⟨a, v, hs, hplaced, hclosing⟩

end

/-- **A picture lasts until the next one, however far that is.**  In a configured track whose last picture is in the open
fragment, the sample of that picture is its last; once the next picture was appended, that sample is in the open fragment
or emitted with the gap between the two as its duration, as far as 32 bits hold it.  Only when the next picture does not
come later does it keep the frame duration. -/
theorem lasts_until_next (plan : SegmenterPlan) (capacity : Nat) (calls later : List Call) (frame : Frame)
    (last next : Pending) (h : Follows VideoInOrder (start .video plan capacity) calls)
    (hlast : (start .video plan capacity).recent none calls = some last)
    (hnext : ((start .video plan capacity).run calls).latest none (.manage frame) = some next) :
    let s := (start .video plan capacity).run calls
    s.assembly.configured = true → s.assembly.fragment.isEmpty = false →
    Follows (fun t call => t.VideoInOrder call ∧ t.Spares call) s (.manage frame :: later) → .append ∈ later →
    ∃ before sample, s.assembly.fragment.samples = before ++ [sample] ∧ sample.data = last.data ∧
      sample.isSync = last.isSync ∧ (s.run (.manage frame :: later)).Carries s.placed
        (before ++ [sample.lasting
          (if last.start < next.start then next.start - last.start else s.assembly.clock.frameTicks)]) := by
  intro s hc hn hf hmem
  have hrecalls : Recalls (some last) s := hlast ▸ recalls_run calls _ none h (recalls_start plan capacity)
  obtain ⟨before, sample, hsamples, hdata, hsync, hcloses⟩ := closes_manage hrecalls hf.1.1 hc hn hnext
  exact ⟨before, sample, hsamples, hdata, hsync, carries_of_closes later _ hcloses hf.2 hmem⟩

/-- Three pictures, 400 ticks apart. -/
def regularPictures : List Call :=
  [(0, true), (400, false), (800, false)].flatMap fun (ms, idr) =>
    [.manage (pictureAt ms idr), .configure] ++ if ms = 0 then [] else [.append]

theorem lasts_until_next_wide :
    let s := (start .video unevenPlan 4096).run regularPictures
    Follows VideoInOrder (start .video unevenPlan 4096) regularPictures ∧ s.assembly.configured = true ∧
    s.assembly.fragment.isEmpty = false ∧
    ∃ before sample, s.assembly.fragment.samples = before ++ [sample] ∧ sample.data = [0, 0, 0, 2, 0x41, 9] ∧
      sample.isSync = false ∧
      (s.run [.manage (pictureAt 2300 true), .configure, .append]).Carries s.placed (before ++ [sample.lasting 1500]) := by
  intro s
  have h : Follows VideoInOrder (start .video unevenPlan 4096) regularPictures := by decide +kernel
  have hc : s.assembly.configured = true := by decide +kernel
  have hn : s.assembly.fragment.isEmpty = false := by decide +kernel
  have hlater : Follows (fun t call => t.VideoInOrder call ∧ t.Spares call) s
      [.manage (pictureAt 2300 true), .configure, .append] := by decide +kernel
  exact ⟨h, hc, hn, lasts_until_next unevenPlan 4096 regularPictures [.configure, .append] (pictureAt 2300 true)
    ⟨800, [0, 0, 0, 2, 0x41, 9], false⟩ ⟨2300, [0, 0, 0, 2, 0x65, 24], true⟩ h (by decide +kernel) (by decide +kernel)
    hc hn hlater (List.mem_cons_of_mem _ List.mem_cons_self)⟩

/-- The third picture comes 400 ticks after the second and 1500 before the fourth, far more than two frame durations; its
sample is emitted with 1500 ticks. -/
theorem wide_gap_emitted :
    let s := (start .video unevenPlan 4096).run regularPictures
    let t := s.run [.manage (pictureAt 2300 true), .configure, .append]
    Follows VideoInOrder (start .video unevenPlan 4096)
      (regularPictures ++ [.manage (pictureAt 2300 true), .configure, .append]) ∧
    s.assembly.configured = true ∧ s.assembly.fragment.isEmpty = false ∧
    (start .video unevenPlan 4096).recent none regularPictures = some ⟨800, [0, 0, 0, 2, 0x41, 9], false⟩ ∧
    s.latest none (.manage (pictureAt 2300 true)) = some ⟨2300, [0, 0, 0, 2, 0x65, 24], true⟩ ∧
    s.assembly.clock.tolerance * s.assembly.clock.frameTicks < 2300 - 800 ∧
    ∃ slot ∈ t.placed, ∃ f : Fragment, slot.Holds f ∧ f.samples.map (·.duration.toNat) = [400, 400, 1500] ∧
      1500 ≠ s.assembly.clock.frameTicks := by
  refine ⟨by decide +kernel, by decide +kernel, by decide +kernel, by decide +kernel, by decide +kernel, by decide +kernel,
    ((start .video unevenPlan 4096).run (regularPictures ++ [.manage (pictureAt 2300 true), .configure, .append])).slot,
    by decide +kernel, ⟨1, 1, 0, [⟨400, true, [0, 0, 0, 2, 0x65, 1]⟩, ⟨400, false, [0, 0, 0, 2, 0x41, 5]⟩,
      ⟨1500, false, [0, 0, 0, 2, 0x41, 9]⟩]⟩, ⟨?_, ?_, ?_⟩, by decide +kernel, by decide +kernel⟩
  · decide +kernel
  · decide +kernel
  · decide +kernel

end Session

end Packager

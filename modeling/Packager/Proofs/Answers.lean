import Packager.Proofs.FragmentLife
/-!
# Proofs.Answers — what an operation answers and what became of the slot

An operation answers `true` when it filled the slot, and leaves the slot alone when it answers anything else
(`Outcome.Tells`).  Only an append that cuts more than once can answer wrongly: several pictures wait before the timing of
a video track is known, and when one cut fails and a later one fills the slot, the failure is what is answered
(`append_tells_iff`).
-/
namespace Packager

/-- Whether a slot that was free holds a media segment now. -/
def Slot.Filled (before after : Slot) : Prop :=
  before.isEmpty = true ∧ after.isEmpty = false ∧ ∃ f : Fragment, after.Holds f

/-- Whether the answer of an operation tells what became of a slot. -/
structure Outcome.Tells {σ : Type} (out : Outcome σ) (slot : Slot) : Prop where
  filled : out.result = .ok true → slot.Filled out.slot
  kept : out.result ≠ .ok true → out.slot = slot

theorem Slot.Filled.ne {before after : Slot} (h : before.Filled after) : after ≠ before := by
  rintro rfl
  obtain ⟨hfree, hheld, -⟩ := h
  rw [hfree] at hheld
  cases hheld

/-- An answer that tells is `true` exactly when the slot was filled. -/
theorem Outcome.Tells.iff {σ : Type} {out : Outcome σ} {slot : Slot} (h : out.Tells slot) :
    out.result = .ok true ↔ slot.Filled out.slot :=
  ⟨h.filled, fun hfilled => by
    by_contra hne
    exact hfilled.ne (h.kept hne)⟩

theorem Outcome.tells_of_kept {σ : Type} {out : Outcome σ} {slot : Slot} (hr : out.result ≠ .ok true)
    (hs : out.slot = slot) : out.Tells slot := ⟨fun h => absurd h hr, fun _ => hs⟩

theorem Outcome.Tells.congr {σ τ : Type} {x : Outcome σ} {y : Outcome τ} {slot : Slot} (h : x.Tells slot)
    (hr : y.result = x.result) (hs : y.slot = x.slot) : y.Tells slot := by
  refine ⟨fun hy => ?_, fun hy => ?_⟩
  · rw [hs]
    exact h.filled (hr ▸ hy)
  · rw [hs]
    exact h.kept (hr ▸ hy)

theorem Assembly.close_tells (a : Assembly) {slot : Slot} (hfree : slot.isEmpty = true) : (a.close slot).Tells slot := by
  rcases a.close_cases slot with ⟨-, hc⟩ | ⟨-, ⟨length, capacity, hover⟩, -, hslot⟩ |
    ⟨-, hresult, -, hholds, hheld, -⟩
  · rw [hc]
    exact Outcome.tells_of_kept (by simp) rfl
  · exact Outcome.tells_of_kept (by rw [hover]; simp) hslot
  · exact ⟨fun _ => ⟨hfree, hheld, a.segment, hholds⟩, fun hne => absurd hresult hne⟩

/-! ## Audio -/

namespace AudioStream

theorem resynchronize_tells (a : Assembly) (v : AudioStream) (next : Nat) (slot : Slot) :
    (resynchronize a v next slot).Tells slot := by
  rcases resynchronize_cases a v next slot with ⟨-, he⟩ | ⟨-, -, ⟨hfree, he⟩ | ⟨-, g, -, he⟩ | ⟨-, -, he⟩⟩ <;> rw [he]
  · exact Outcome.tells_of_kept (by simp) rfl
  · exact (a.close_tells hfree).congr rfl rfl
  · exact Outcome.tells_of_kept (by simp) rfl
  · exact Outcome.tells_of_kept (by simp) rfl

/-- **An audio track answers right**: after a cut before the frame there is none behind it. -/
theorem append_tells (a : Assembly) (v : AudioStream) (slot : Slot) : (append a v slot).Tells slot := by
  unfold append
  cases a.pending with
  | none => exact Outcome.tells_of_kept (by simp) rfl
  | some p =>
    have hcut := resynchronize_tells { a with pending := none } v p.start slot
    simp only
    generalize resynchronize { a with pending := none } v p.start slot = cut at hcut ⊢
    split
    · rename_i hnone
      have hsame : cut.slot = slot := hcut.kept (by rw [hnone]; simp)
      rw [hsame]
      split
      · rename_i hfull
        rw [Bool.and_eq_true] at hfull
        exact (Assembly.close_tells _ hfull.2).congr rfl rfl
      · exact Outcome.tells_of_kept (by simp) rfl
    · exact hcut.congr rfl rfl

end AudioStream

/-! ## Video -/

namespace VideoStream

theorem appendFrame_tells (a : Assembly) (v : VideoStream) (p : Pending) (slot : Slot) :
    (appendFrame a v p slot).Tells slot := by
  rcases appendFrame_cases a v p slot with ⟨-, -, he⟩ | ⟨-, -, ⟨-, -, hslot, hresult⟩ | ⟨-, -, hfree, -, hslot, hresult⟩⟩
  · rw [he]
    exact Outcome.tells_of_kept (by simp) rfl
  · exact Outcome.tells_of_kept (by rw [hresult]; simp) hslot
  · exact ((closeLast a v p.start).close_tells hfree).congr hresult hslot

/-- What the pictures of a queue answer one by one. -/
def answers : List Pending → Outcome (Assembly × VideoStream) → List (Except Failure Bool)
  | [], _ => []
  | p :: queue, acc =>
    (appendFrame acc.state.1 acc.state.2 p acc.slot).result :: answers queue (appendNext acc p)

/-- Answers joined are `true` when one of them is and none is a failure. -/
theorem foldl_joinResults (answers : List (Except Failure Bool)) (first : Except Failure Bool) :
    answers.foldl joinResults first = .ok true ↔
      .ok true ∈ first :: answers ∧ ∀ e, .error e ∉ first :: answers := by
  induction answers generalizing first with
  | nil => cases first <;> simp
  | cons next rest ih =>
    rw [List.foldl_cons, ih]
    cases first with
    | error e =>
      -- of two failures the later one is answered, but a failure it stays
      have hfails : ∃ e', joinResults (.error e) next = .error e' := by
        cases next with
        | error e' => exact ⟨e', rfl⟩
        | ok y => exact ⟨e, rfl⟩
      obtain ⟨e', hfails⟩ := hfails
      rw [hfails]
      exact ⟨fun h => absurd List.mem_cons_self (h.2 e'), fun h => absurd List.mem_cons_self (h.2 e)⟩
    | ok x =>
      cases next with
      | error e => exact ⟨fun h => absurd List.mem_cons_self (h.2 e), fun h => absurd (by simp) (h.2 e)⟩
      | ok y => cases x <;> cases y <;> simp [joinResults]

theorem appendAll_result : ∀ (queue : List Pending) (acc : Outcome (Assembly × VideoStream)),
    (appendAll queue acc).result = (answers queue acc).foldl joinResults acc.result
  | [], _ => rfl
  | _ :: queue, acc => appendAll_result queue (appendNext acc _)

/-- **One picture's cut fills the slot**, whatever the pictures answer together. -/
theorem appendAll_slot : ∀ (queue : List Pending) (acc : Outcome (Assembly × VideoStream)),
    (.ok true ∈ answers queue acc → acc.slot.Filled (appendAll queue acc).slot) ∧
    (.ok true ∉ answers queue acc → (appendAll queue acc).slot = acc.slot)
  | [], acc => ⟨nofun, fun _ => rfl⟩
  | p :: queue, acc => by
    have hstep := appendFrame_tells acc.state.1 acc.state.2 p acc.slot
    obtain ⟨hfilled, hkept⟩ := appendAll_slot queue (appendNext acc p)
    by_cases hr : (appendFrame acc.state.1 acc.state.2 p acc.slot).result = .ok true
    · have hnow : acc.slot.Filled (appendNext acc p).slot := hstep.filled hr
      -- the rest of the queue finds the slot held and leaves it alone
      have hheld := appendAll_held queue (appendNext acc p) hnow.2.1
      refine ⟨fun _ => ?_, fun hno => absurd (List.mem_cons.2 (.inl hr.symm)) hno⟩
      rw [appendAll_cons, hheld]
      exact hnow
    · have hsame : (appendNext acc p).slot = acc.slot := hstep.kept hr
      rw [hsame] at hfilled hkept
      refine ⟨fun hm => ?_, fun hno => ?_⟩
      · rcases List.mem_cons.1 hm with heq | hm
        · exact absurd heq.symm hr
        · exact hfilled hm
      · exact hkept fun hm => hno (List.mem_cons_of_mem _ hm)

theorem length_answers : ∀ (queue : List Pending) (acc : Outcome (Assembly × VideoStream)),
    (answers queue acc).length = queue.length
  | [], _ => rfl
  | _ :: queue, acc => congrArg (· + 1) (length_answers queue (appendNext acc _))

end VideoStream

/-! ## Either kind -/

namespace Segmenter

variable {s g : Segmenter}

/-- What the frames that wait answer one by one. -/
def answers (s : Segmenter) (slot : Slot) : List (Except Failure Bool) :=
  match s.stream with
  | .audio _ => [(s.append slot).result]
  | .video v => VideoStream.answers (VideoStream.queue s.assembly v)
      ⟨.ok false, ({ s.assembly with pending := none }, { v with preroll := [] }), slot⟩

/-- Whether an append hides that it fills a slot: the cut of one waiting frame does, but that of another fails. -/
def Hides (s : Segmenter) (slot : Slot) : Prop :=
  s.assembly.configured = true ∧ .ok true ∈ s.answers slot ∧ ∃ e, .error e ∈ s.answers slot

/-- **What the waiting frames answer** decides on the slot and on the answer to the caller. -/
theorem append_answers (slot : Slot) (hc : s.assembly.configured = true) :
    (.ok true ∈ s.answers slot → slot.Filled (s.append slot).slot) ∧
    (.ok true ∉ s.answers slot → (s.append slot).slot = slot) ∧
    ((s.append slot).result = .ok true ↔ .ok true ∈ s.answers slot ∧ ∀ e, .error e ∉ s.answers slot) := by
  obtain ⟨a, stream⟩ := s
  cases stream with
  | audio v =>
    have htells : (append ⟨a, .audio v⟩ slot).Tells slot := by
      rw [append_audio v slot hc]
      exact (AudioStream.append_tells a v slot).congr rfl rfl
    show (Except.ok true ∈ [_] → _) ∧ (Except.ok true ∉ [_] → _) ∧ (_ ↔ Except.ok true ∈ [_] ∧ ∀ e, Except.error e ∉ [_])
    simp only [List.mem_singleton]
    refine ⟨fun h => htells.filled h.symm, fun h => htells.kept fun hr => h hr.symm, fun h => ⟨h.symm, ?_⟩, fun h => h.1.symm⟩
    intro e he
    rw [h] at he
    cases he
  | video v =>
    have hslot := VideoStream.appendAll_slot (VideoStream.queue a v)
      ⟨.ok false, ({ a with pending := none }, { v with preroll := [] }), slot⟩
    rw [append_video v slot hc]
    refine ⟨hslot.1, hslot.2, ?_⟩
    have hresult : (VideoStream.append a v slot).result = (answers ⟨a, .video v⟩ slot).foldl VideoStream.joinResults
        (.ok false) := VideoStream.appendAll_result (VideoStream.queue a v) _
    rw [hresult, VideoStream.foldl_joinResults]
    simp

/-- **An append answers right unless it hides** that it filled the slot. -/
theorem append_tells_iff (s : Segmenter) (slot : Slot) : (s.append slot).Tells slot ↔ ¬s.Hides slot := by
  by_cases hc : s.assembly.configured = true
  · obtain ⟨hfilled, hkept, hresult⟩ := s.append_answers slot hc
    constructor
    · rintro htells ⟨-, hm, e, he⟩
      exact (hresult.1 (htells.iff.2 (hfilled hm))).2 e he
    · intro hshown
      refine ⟨fun hr => hfilled (hresult.1 hr).1, fun hr => hkept fun hm => hr (hresult.2 ⟨hm, fun e he => ?_⟩)⟩
      exact hshown ⟨hc, hm, e, he⟩
  · rw [append_of_unconfigured (by simpa using hc)]
    exact ⟨fun _ h => hc h.1, fun _ => Outcome.tells_of_kept (by simp) rfl⟩

/-- **A finish answers right.** -/
theorem finish_tells (s : Segmenter) (slot : Slot) : (s.finish slot).Tells slot := by
  rcases s.finish_cases slot with ⟨-, he⟩ | ⟨hfree, hresult, hslot, -⟩
  · rw [he]
    exact Outcome.tells_of_kept (by simp) rfl
  · exact (s.absorb.assembly.close_tells hfree).congr hresult hslot

/-- A single frame hides nothing. -/
theorem not_hides_of_preroll (h : s.preroll = []) (slot : Slot) : ¬s.Hides slot := by
  rintro ⟨-, hm, e, he⟩
  have hlength : (s.answers slot).length ≤ 1 := by
    obtain ⟨a, stream⟩ := s
    cases stream with
    | audio v => exact Nat.le_refl 1
    | video v =>
      have hnone : v.preroll = [] := h
      rw [answers, VideoStream.length_answers, VideoStream.queue, hnone]
      cases a.pending <;> simp
  obtain ⟨x, hx⟩ := List.length_eq_one_iff.1 (Nat.le_antisymm hlength (List.length_pos_of_mem hm))
  rw [hx] at hm he
  rw [← List.mem_singleton.1 hm] at he
  cases List.mem_singleton.1 he

/-- Whether a segmenter has no more frames of before its timing was known. -/
def Settled (s : Segmenter) : Prop := s.assembly.configured = true ∧ s.preroll = []

theorem settled_append (slot : Slot) (hc : s.assembly.configured = true) : (s.append slot).state.Settled := by
  obtain ⟨-, f, n, phase, hstate⟩ := append_moved hc slot
  refine ⟨by rw [hstate]; exact hc, ?_⟩
  obtain ⟨a, stream⟩ := s
  cases stream with
  | audio v =>
    rw [append_audio v slot hc]
    rfl
  | video v =>
    rw [append_video v slot hc]
    exact (VideoStream.append_moved a v slot).2

theorem settled_finish (h : s.Settled) (slot : Slot) : (s.finish slot).state.Settled := by
  rcases s.finish_cases slot with ⟨-, he⟩ | ⟨-, -, -, phase, hstate⟩
  · rw [he]
    exact h
  · obtain ⟨f, n, phase', hclosed, -⟩ := s.absorb.assembly.close_state slot
    obtain ⟨-, f', n', phase'', habsorbed⟩ := s.absorb_moved
    rw [hstate, hclosed]
    refine ⟨?_, ?_⟩
    · show s.absorb.assembly.configured = true
      rw [habsorbed]
      exact h.1
    · obtain ⟨a, stream⟩ := s
      cases stream with
      | audio v => rfl
      | video v => exact (VideoStream.absorb_moved a v).2

theorem settled_manage (h : s.Settled) {frame : Frame} {isNew : Bool} (hm : s.manage frame = .ok (isNew, g)) :
    g.Settled := by
  obtain ⟨hc, hnone⟩ := h
  obtain ⟨-, clock, pending, phase, hstate⟩ := manage_state hm
  refine ⟨by rw [hstate]; exact hc, ?_⟩
  rcases manage_cases hm with ⟨a, v, f, b, w, rfl, rfl, -, rfl⟩ | ⟨a, v, f, b, w, rfl, rfl, htaken, rfl⟩
  · rfl
  · have hnone : v.preroll = [] := hnone
    have hc : a.configured = true := hc
    show w.preroll = []
    rcases VideoStream.manage_ok htaken with ⟨-, -, hpreroll⟩ | ⟨-, -, -, -, -, hpreroll⟩
    · rw [hpreroll, hnone]
    · rw [hpreroll]
      cases a.pending with
      | none => exact hnone
      | some q =>
        simp only [hc, if_true]
        exact hnone

theorem settled_relabelled (h : s.Settled) (hg : s.Relabelled g) : g.Settled := by
  obtain ⟨zero, metadata, bitrate, described, rfl⟩ := hg
  exact h

theorem settled_flush (h : s.Settled) : s.flush.Settled := by
  obtain ⟨hc, hnone⟩ := h
  refine ⟨hc, ?_⟩
  rw [← hnone]
  unfold preroll flush
  cases s.stream <;> rfl

/-- **Every operation keeps a segmenter settled.** -/
theorem settled_inherited : Inherited fun s g => s.Settled → g.Settled where
  refl _ h := h
  trans h h' hs := h' (h hs)
  manage hm h := settled_manage h hm
  configure hc h := by
    obtain ⟨ticks, phase, rfl⟩ := configure_state hc
    exact ⟨rfl, h.2⟩
  describe s slot h := settled_relabelled h (s.relabelled_describe slot)
  append _ slot h := settled_append slot h.1
  finish _ slot h := settled_finish h slot
  flush _ h := settled_flush h
  setOrigin s origin h := settled_relabelled h (s.relabelled_setOrigin origin)

end Segmenter

/-! ## Runs -/

namespace Session

/-- **When the answer of an operation tells what became of the slot**, in every state of a segmenter of either kind and
for every slot.  A finish always answers right.  An append does unless the cut of one of the frames that wait fails and
that of another fills the slot: then the failure is answered although the slot was filled.  That takes pictures from
before the timing was known, so it happens at the first append after that or never. -/
theorem answers_tell (s : Session) (slot : Slot) :
    (s.segmenter.finish slot).Tells slot ∧
    ((s.segmenter.append slot).Tells slot ↔ ¬s.segmenter.Hides slot) ∧
    (s.segmenter.Hides slot → s.segmenter.kind = .video ∧ slot.Filled (s.segmenter.append slot).slot ∧
      (s.segmenter.append slot).result ≠ .ok true) ∧
    (s.assembly.configured = true → ∀ calls later,
      (((s.apply .append).runAmong calls).segmenter.append later).Tells later) := by
  have hiff := s.segmenter.append_tells_iff slot
  refine ⟨s.segmenter.finish_tells slot, hiff, fun hhides => ?_, fun hc calls later => ?_⟩
  · have hfilled := (Segmenter.append_answers slot hhides.1).1 hhides.2.1
    refine ⟨?_, hfilled, fun hr => hiff.1 ⟨fun _ => hfilled, fun hne => absurd hr hne⟩ hhides⟩
    by_contra hk
    refine Segmenter.not_hides_of_preroll ?_ slot hhides
    cases hs : s.segmenter.stream with
    | audio v => simp [Segmenter.preroll, hs]
    | video v => exact absurd (by simp [Segmenter.kind, hs]) hk
  · have hsettled := runAmong_kept Segmenter.settled_inherited
      (fun s bitrate h => Segmenter.settled_relabelled h (s.relabelled_setBitrate bitrate)) calls (s.apply .append)
      (Segmenter.settled_append s.slot hc)
    exact (Segmenter.append_tells_iff _ later).2 (Segmenter.not_hides_of_preroll hsettled.2 later)

/-- Three IDR pictures a second apart, the first of them large, and parameter sets with the last only. -/
def crowdedPictures : List Call :=
  [.manage (.video ⟨1000000000, 2, 2, [0, 0, 1, 0x65] ++ List.replicate 30 1⟩), .configure,
    .manage (.video ⟨2000000000, 2, 2, [0, 0, 1, 0x65, 11]⟩), .configure, .manage (pictureAt 2000 true), .configure]

/-- The first picture is too large for the slot and the second fills it, but it is the failure that is answered. -/
theorem filled_behind_failure :
    let s := (start .video unevenPlan 150).run crowdedPictures
    s.slot.Filled (s.segmenter.append s.slot).slot ∧ (s.segmenter.append s.slot).Overflows := by
  refine ⟨⟨by decide +kernel, by decide +kernel, ⟨1, 1, 1000, [⟨1000, true, [0, 0, 0, 2, 0x65, 11]⟩]⟩, ?_, ?_, ?_⟩, ?_⟩
  · decide +kernel
  · decide +kernel
  · decide +kernel
  · decide +kernel

end Session

end Packager

import Packager.Track.Segmenter
/-!
# Proofs.Operations — what each operation of a segmenter can do

One lemma for each operation says all its endings: a fragment is closed, is too large for the slot or was empty; a jump
of the clock is cut, stretched over or put off; a frame is refused or waits.  The proofs about runs read the operations
through these lemmas only.
-/
namespace Packager

/-- The sample that a frame makes: its bytes, and whether decoding can start there.  A frame that is refused makes none,
and neither does a picture frame of parameter sets and delimiters alone. -/
def Frame.sample? : Frame → Option (Bytes × Bool)
  | .audio f =>
    if f.data.isEmpty then none
    else
      match Adts.header? f.data with
      | .error _ => none
      | .ok header => some (AudioStream.payload header f.data, true)
  | .video f =>
    let nals := AnnexB.split f.data
    if nals.any VideoStream.isCoded then some (VideoStream.sampleData nals, VideoStream.isSync nals) else none

/-- The slot, when an operation filled it. -/
def Outcome.made {σ : Type} (out : Outcome σ) : List Slot :=
  match out.result with
  | .ok true => [out.slot]
  | _ => []

theorem Outcome.made_congr {σ τ : Type} {x : Outcome σ} {y : Outcome τ} (hr : x.result = y.result)
    (hs : x.slot = y.slot) : x.made = y.made := by
  unfold made
  rw [hr, hs]

/-- Whether an operation failed because the slot is too small. -/
def Outcome.Overflows {σ : Type} (out : Outcome σ) : Prop := ∃ length capacity, out.result = .error (.overflow length capacity)

instance {σ : Type} (out : Outcome σ) : Decidable out.Overflows :=
  decidable_of_iff ((match out.result with | .error (.overflow _ _) => true | _ => false) = true) (by
    unfold Outcome.Overflows
    split <;> simp_all)

/-- Whether a slot holds the media segment of a fragment, under the fragment's number and start. -/
structure Slot.Holds (slot : Slot) (f : Fragment) : Prop where
  data : slot.data = f.encode
  sequence : f.sequence = .ofNat slot.sequence
  decodeTime : f.decodeTime = .ofNat slot.timestamp

/-! ## The open fragment -/

namespace OpenFragment

theorem samples_of_isEmpty {f : OpenFragment} (h : f.isEmpty = true) : f.samples = [] := List.isEmpty_iff.1 h

theorem exists_last {f : OpenFragment} (h : f.isEmpty = false) : ∃ before last, f.samples = before ++ [last] := by
  rcases List.eq_nil_or_concat f.samples with hs | ⟨before, last, hs⟩
  · rw [isEmpty, hs] at h
    cases h
  · exact ⟨before, last, by rw [hs, List.concat_eq_append]⟩

theorem setLast_cases (f : OpenFragment) (duration : Nat) :
    (f.isEmpty = true ∧ f.setLast duration = f) ∨
    ∃ before last, f.samples = before ++ [last] ∧ f.setLast duration =
      { f with
        samples := before ++ [{ last with duration := .ofNat (min duration longest) }]
        duration := f.duration - last.duration.toNat + duration } := by
  cases he : f.isEmpty with
  | true =>
    refine .inl ⟨rfl, ?_⟩
    unfold setLast
    rw [samples_of_isEmpty he]
    rfl
  | false =>
    obtain ⟨before, last, hs⟩ := exists_last he
    refine .inr ⟨before, last, hs, ?_⟩
    unfold setLast
    rw [hs, List.getLast?_concat, List.dropLast_concat]

theorem samples_push (f : OpenFragment) (start : Nat) (s : Sample) : (f.push start s).samples = f.samples ++ [s] := by
  unfold push
  split
  · rename_i h
    rw [samples_of_isEmpty h]
    rfl
  · rfl

end OpenFragment

/-! ## Closing a fragment -/

namespace Slot

/-- **What is loaded is there**, or the slot is too small for it. -/
theorem load_cases (s : Slot) (bytes : Bytes) (sequence timestamp duration : Nat) :
    s.load bytes sequence timestamp duration = .error (.overflow bytes.length s.capacity) ∨
    ∃ t : Slot, s.load bytes sequence timestamp duration = .ok t ∧ t.data = bytes ∧ t.length = bytes.length ∧
      t.sequence = sequence ∧ t.timestamp = timestamp ∧ t.duration = duration := by
  unfold load
  cases h : s.fill bytes with
  | error e =>
    left
    unfold fill at h
    split at h <;> cases h
    rfl
  | ok t =>
    right
    have hd : t.data = bytes := data_fill h
    refine ⟨_, rfl, hd, ?_, rfl, rfl, rfl⟩
    unfold fill at h
    split at h <;> cases h
    rfl

/-- Loading fails exactly when the slot is too small. -/
theorem load_eq_error_iff (s : Slot) (bytes : Bytes) (sequence timestamp duration : Nat) :
    s.load bytes sequence timestamp duration = .error (.overflow bytes.length s.capacity) ↔
      s.capacity < bytes.length := by
  unfold load fill
  split
  · rename_i h
    exact iff_of_true rfl h
  · rename_i h
    exact iff_of_false nofun h

theorem isEmpty_of_length_pos {s : Slot} (h : 0 < s.length) : s.isEmpty = false := by
  unfold isEmpty
  rw [Bool.and_assoc, Bool.and_eq_false_imp]
  intro h'
  simp only [beq_iff_eq] at h'
  omega

end Slot

theorem Fragment.length_encode_pos (f : Fragment) : 0 < f.encode.length := by
  rw [encode, boxes, Box.encodeAll, List.length_append, Box.length_encode, segmentType, Box.size]
  omega

namespace Assembly

/-- **The three endings of `close`**: nothing was open, the slot is too small and the samples are lost, or the slot now
holds them. -/
theorem close_cases (a : Assembly) (slot : Slot) :
    (a.fragment.isEmpty = true ∧ a.close slot = ⟨.ok false, a, slot⟩) ∨
    (a.fragment.isEmpty = false ∧ (a.close slot).Overflows ∧ (a.close slot).state = { a with fragment := .empty } ∧
      (a.close slot).slot = slot) ∨
    (a.fragment.isEmpty = false ∧ (a.close slot).result = .ok true ∧
      (a.close slot).state = { a with fragment := .empty, nextSequence := a.nextSequence + 1, phase := .boundary } ∧
      (a.close slot).slot.Holds a.segment ∧ (a.close slot).slot.isEmpty = false ∧
      (a.close slot).slot.timestamp = a.fragment.start ∧ (a.close slot).slot.duration = a.fragment.duration) := by
  unfold close
  cases he : a.fragment.isEmpty with
  | true => exact .inl ⟨rfl, rfl⟩
  | false =>
    right
    rcases slot.load_cases a.segment.encode a.nextSequence a.fragment.start a.fragment.duration with
      h | ⟨t, h, hd, hl, hs, ht, hu⟩
    · exact .inl ⟨rfl, by simp [h, Outcome.Overflows], by simp [h], by simp [h]⟩
    · right
      have hp := a.segment.length_encode_pos
      have hn : t.isEmpty = false := Slot.isEmpty_of_length_pos (by omega)
      have hh : t.Holds a.segment := ⟨hd, by rw [hs]; rfl, by rw [ht]; rfl⟩
      simp [h, hh, hn, ht, hu]

/-- An open fragment is lost exactly when the slot is too small for its segment. -/
theorem close_overflows_iff {a : Assembly} (h : a.fragment.isEmpty = false) (slot : Slot) :
    (a.close slot).Overflows ↔ slot.capacity < a.segment.encode.length := by
  rw [← slot.load_eq_error_iff a.segment.encode a.nextSequence a.fragment.start a.fragment.duration]
  unfold close Outcome.Overflows
  rw [h]
  rcases slot.load_cases a.segment.encode a.nextSequence a.fragment.start a.fragment.duration with hl | ⟨t, hl, -⟩
  · rw [hl]
    exact iff_of_true ⟨_, _, rfl⟩ rfl
  · rw [hl]
    exact iff_of_false (fun ⟨_, _, he⟩ => nomatch he) nofun

/-- Closing leaves an empty fragment, and touches only the number and the phase beside it. -/
theorem close_state (a : Assembly) (slot : Slot) : ∃ g n phase,
    (a.close slot).state = { a with fragment := g, nextSequence := n, phase := phase } ∧ g.isEmpty = true := by
  rcases a.close_cases slot with ⟨he, hc⟩ | ⟨-, -, hs, -⟩ | ⟨-, -, hs, -⟩
  · exact ⟨a.fragment, a.nextSequence, a.phase, by rw [hc], he⟩
  · exact ⟨.empty, a.nextSequence, a.phase, hs, rfl⟩
  · exact ⟨.empty, a.nextSequence + 1, .boundary, hs, rfl⟩

theorem isFull_iff (a : Assembly) :
    a.isFull = true ↔ a.fragment.isEmpty = false ∧ a.target ≤ a.fragment.duration := by
  simp [isFull, OpenFragment.reaches]

/-- A frame duration that fits a sample is the duration it gets. -/
theorem toNat_sampleTicks {a : Assembly} (h : a.clock.frameTicks ≤ OpenFragment.longest) :
    a.sampleTicks.toNat = a.clock.frameTicks := by
  unfold sampleTicks
  rw [Nat.min_eq_left h]
  refine UInt32.toNat_ofNat_of_lt' ?_
  unfold OpenFragment.longest UInt32.size at h
  show a.clock.frameTicks < 2 ^ 32
  omega

/-- Whether an assembly differs only in the fragment, the number and the phase. -/
def Moved (a b : Assembly) : Prop := ∃ g n phase, b = { a with fragment := g, nextSequence := n, phase := phase }

namespace Moved

theorem refl (a : Assembly) : a.Moved a := ⟨a.fragment, a.nextSequence, a.phase, rfl⟩

theorem trans {a b c : Assembly} (h : a.Moved b) (h' : b.Moved c) : a.Moved c := by
  obtain ⟨g, n, phase, rfl⟩ := h
  obtain ⟨g', n', phase', rfl⟩ := h'
  exact ⟨g', n', phase', rfl⟩

theorem push {a b : Assembly} (h : a.Moved b) (p : Pending) : a.Moved (b.push p) := by
  obtain ⟨g, n, phase, rfl⟩ := h
  exact ⟨_, n, .accumulating, rfl⟩

theorem close {a b : Assembly} (h : a.Moved b) (slot : Slot) : a.Moved (b.close slot).state := by
  obtain ⟨g, n, phase, hs, -⟩ := b.close_state slot
  exact h.trans ⟨g, n, phase, hs⟩

end Moved

end Assembly

/-- **The endings of `resynchronize`**: there is no jump to deal with, the fragment before the jump is cut, its last
sample is stretched, or the jump has to wait. -/
theorem AudioStream.resynchronize_cases (a : Assembly) (v : AudioStream) (next : Nat) (slot : Slot) :
    ((v.resync = false ∨ a.fragment.isEmpty = true) ∧
      resynchronize a v next slot = ⟨.ok false, (a, { v with resync := false }), slot⟩) ∨
    (v.resync = true ∧ a.fragment.isEmpty = false ∧
      ((slot.isEmpty = true ∧ resynchronize a v next slot =
          ⟨(a.close slot).result, ((a.close slot).state, { v with resync := false }), (a.close slot).slot⟩) ∨
       (slot.isEmpty = false ∧ ∃ g, a.fragment.bridge? next = some g ∧ resynchronize a v next slot =
          ⟨.ok false, ({ a with fragment := g }, { v with resync := false }), slot⟩) ∨
       (slot.isEmpty = false ∧ a.fragment.bridge? next = none ∧
          resynchronize a v next slot = ⟨.ok false, (a, v), slot⟩))) := by
  unfold resynchronize
  cases hv : v.resync with
  | false => exact .inl ⟨.inl rfl, rfl⟩
  | true =>
    cases he : a.fragment.isEmpty with
    | true => exact .inl ⟨.inr rfl, rfl⟩
    | false =>
      refine .inr ⟨rfl, rfl, ?_⟩
      cases hs : slot.isEmpty with
      | true => exact .inl ⟨rfl, rfl⟩
      | false =>
        cases hb : a.fragment.bridge? next with
        | none => exact .inr (.inr ⟨rfl, rfl, rfl⟩)
        | some g => exact .inr (.inl ⟨rfl, g, rfl, rfl⟩)

namespace AudioStream

theorem resynchronize_moved (a : Assembly) (v : AudioStream) (next : Nat) (slot : Slot) :
    a.Moved (resynchronize a v next slot).state.1 := by
  rcases resynchronize_cases a v next slot with ⟨-, he⟩ | ⟨-, -, ⟨-, he⟩ | ⟨-, g, -, he⟩ | ⟨-, -, he⟩⟩ <;> rw [he]
  · exact .refl a
  · exact (Assembly.Moved.refl a).close slot
  · exact ⟨g, a.nextSequence, a.phase, rfl⟩
  · exact .refl a

theorem append_moved (a : Assembly) (v : AudioStream) (slot : Slot) :
    Assembly.Moved { a with pending := none } (append a v slot).state.1 := by
  unfold append
  cases hp : a.pending with
  | none =>
    have ha : { a with pending := none } = a := by rw [← hp]
    rw [ha]
    exact .refl a
  | some p =>
    have hpush := (resynchronize_moved { a with pending := none } v p.start slot).push p
    simp only
    split
    · split
      · exact hpush.close _
      · exact hpush
    · exact hpush

/-- **Without a jump** the waiting frame is appended, and a fragment that has become full is cut when the slot is free. -/
theorem append_in_pace {a : Assembly} {v : AudioStream} {p : Pending} (hp : a.pending = some p) (hr : v.resync = false)
    (slot : Slot) : append a v slot =
      let b := Assembly.push { a with pending := none } p
      if b.isFull && slot.isEmpty then ⟨(b.close slot).result, ((b.close slot).state, v), (b.close slot).slot⟩
      else ⟨.ok false, (b, v), slot⟩ := by
  have hv : { v with resync := false } = v := by rw [← hr]
  have hnone : resynchronize { a with pending := none } v p.start slot =
      ⟨.ok false, ({ a with pending := none }, v), slot⟩ := by
    unfold resynchronize
    rw [hv, hr]
    rfl
  unfold append
  rw [hp]
  simp only [hnone]

theorem absorb_moved (a : Assembly) : Assembly.Moved { a with pending := none } (absorb a) := by
  unfold absorb
  cases hp : a.pending with
  | none =>
    have ha : { a with pending := none } = a := by rw [← hp]
    rw [ha]
    exact .refl a
  | some p => exact (Assembly.Moved.refl { a with pending := none }).push p

end AudioStream

namespace VideoStream

theorem closeLast_moved {a b : Assembly} (h : a.Moved b) (v : VideoStream) (next : Nat) :
    a.Moved (closeLast b v next) := by
  obtain ⟨g, n, phase, rfl⟩ := h
  exact ⟨_, n, phase, rfl⟩

/-- **The endings of `appendFrame`**: the frame is dropped, it is appended, or the fragment before it is cut, which is lost
when the slot is too small. -/
theorem appendFrame_cases (a : Assembly) (v : VideoStream) (p : Pending) (slot : Slot) :
    (a.fragment.isEmpty = true ∧ p.isSync = false ∧ appendFrame a v p slot = ⟨.ok false, (a, v), slot⟩) ∨
    ((a.fragment.isEmpty = true → p.isSync = true) ∧ (appendFrame a v p slot).state.2 = { v with lastStart := p.start } ∧
      (((p.isSync = true → (closeLast a v p.start).isFull = true → slot.isEmpty = false) ∧
          (appendFrame a v p slot).state.1 = (closeLast a v p.start).push p ∧ (appendFrame a v p slot).slot = slot ∧
          (appendFrame a v p slot).result = .ok false) ∨
       (p.isSync = true ∧ (closeLast a v p.start).isFull = true ∧ slot.isEmpty = true ∧
          (appendFrame a v p slot).state.1 = ((closeLast a v p.start).close slot).state.push p ∧
          (appendFrame a v p slot).slot = ((closeLast a v p.start).close slot).slot ∧
          (appendFrame a v p slot).result = ((closeLast a v p.start).close slot).result))) := by
  unfold appendFrame
  split
  · rename_i h
    rw [Bool.and_eq_true] at h
    exact .inl ⟨h.1, by simpa using h.2, rfl⟩
  · rename_i h
    have hkept : a.fragment.isEmpty = true → p.isSync = true := by simpa using h
    simp only
    split
    · rename_i hcut
      rw [Bool.and_eq_true, Bool.and_eq_true] at hcut
      exact .inr ⟨hkept, rfl, .inr ⟨hcut.1.1, hcut.1.2, hcut.2, rfl, rfl, rfl⟩⟩
    · rename_i hcut
      refine .inr ⟨hkept, rfl, .inl ⟨fun hs hf => ?_, rfl, rfl, rfl⟩⟩
      simpa [hs, hf] using hcut

theorem appendFrame_moved (a : Assembly) (v : VideoStream) (p : Pending) (slot : Slot) :
    a.Moved (appendFrame a v p slot).state.1 ∧ (appendFrame a v p slot).state.2.preroll = v.preroll := by
  unfold appendFrame
  split
  · exact ⟨.refl a, rfl⟩
  · have hlast := closeLast_moved (.refl a) v p.start
    simp only
    split
    · exact ⟨(hlast.close slot).push p, rfl⟩
    · exact ⟨hlast.push p, rfl⟩

theorem appendAll_moved : ∀ (queue : List Pending) (acc : Outcome (Assembly × VideoStream)),
    acc.state.1.Moved (appendAll queue acc).state.1 ∧ (appendAll queue acc).state.2.preroll = acc.state.2.preroll
  | [], acc => ⟨.refl acc.state.1, rfl⟩
  | p :: queue, acc => by
    obtain ⟨hm, hr⟩ := appendFrame_moved acc.state.1 acc.state.2 p acc.slot
    obtain ⟨hm', hr'⟩ := appendAll_moved queue
      { appendFrame acc.state.1 acc.state.2 p acc.slot with
        result := joinResults acc.result (appendFrame acc.state.1 acc.state.2 p acc.slot).result }
    exact ⟨hm.trans hm', hr'.trans hr⟩

theorem append_moved (a : Assembly) (v : VideoStream) (slot : Slot) :
    Assembly.Moved { a with pending := none } (append a v slot).state.1 ∧ (append a v slot).state.2.preroll = [] :=
  appendAll_moved (queue a v) ⟨.ok false, ({ a with pending := none }, { v with preroll := [] }), slot⟩

theorem absorbFrame_moved (a : Assembly) (v : VideoStream) (p : Pending) :
    a.Moved (absorbFrame a v p).1 ∧ (absorbFrame a v p).2.preroll = v.preroll := by
  unfold absorbFrame
  split
  · exact ⟨.refl a, rfl⟩
  · exact ⟨(closeLast_moved (.refl a) v p.start).push p, rfl⟩

theorem absorbAll_moved : ∀ (queue : List Pending) (a : Assembly) (v : VideoStream),
    let out := queue.foldl (fun (a, v) p => absorbFrame a v p) (a, v)
    a.Moved out.1 ∧ out.2.preroll = v.preroll
  | [], a, _ => ⟨.refl a, rfl⟩
  | p :: queue, a, v => by
    obtain ⟨hm, hr⟩ := absorbFrame_moved a v p
    obtain ⟨hm', hr'⟩ := absorbAll_moved queue (absorbFrame a v p).1 (absorbFrame a v p).2
    exact ⟨hm.trans hm', hr'.trans hr⟩

theorem absorb_moved (a : Assembly) (v : VideoStream) :
    Assembly.Moved { a with pending := none } (absorb a v).1 ∧ (absorb a v).2.preroll = [] :=
  absorbAll_moved (queue a v) { a with pending := none } { v with preroll := [] }

end VideoStream

/-! ## Taking a frame and setting the timing -/

/-- A frame arrives at the tick that the clock has for its time stamp. -/
theorem Clock.accept_ticks (c : Clock) (pts : Nanos) : (c.accept pts).2.ticks = (c.accept pts).1.ticksAt pts := by
  obtain ⟨timeBase, tolerance, offset, origin, frameTicks, expected⟩ := c
  unfold accept
  cases offset with
  | none => rfl
  | some first =>
    simp only
    split
    · rfl
    · split <;> rfl

namespace AudioStream

/-- **A taken frame waits at the tick where it was expected.** -/
theorem manage_ok {a b : Assembly} {v w : AudioStream} {f : AudioFrame} {isNew : Bool}
    (h : manage a v f = .ok (isNew, b, w)) : ∃ data phase,
    (Frame.audio f).sample? = some (data, true) ∧
    b = { a with
      clock := (a.clock.accept f.pts).1, pending := some ⟨(a.clock.accept f.pts).1.expected, data, true⟩, phase } ∧
    w.resync = (v.resync || (a.clock.accept f.pts).2.drifted && !a.fragment.isEmpty) := by
  unfold manage at h
  split at h
  · cases h
  · rename_i hd
    split at h
    · cases h
    · rename_i header hh
      cases h
      exact ⟨payload header f.data, _, by simp [Frame.sample?, hd, hh], rfl, rfl⟩

theorem configure_ok {a b : Assembly} {v : AudioStream} (h : configure a v = .ok b) : ∃ frameTicks,
    0 < frameTicks ∧ b = a.configure frameTicks := by
  unfold configure at h
  split at h
  · cases h
  · split at h
    · cases h
    · split at h
      · cases h
      · simp only at h
        split at h <;> cases h
        rename_i hpos
        exact ⟨_, Nat.pos_of_ne_zero hpos, rfl⟩

end AudioStream

namespace VideoStream

theorem keepWaiting_spec (a : Assembly) (v : VideoStream) : ∃ q, (keepWaiting a v).1 = { a with pending := q } ∧
    (keepWaiting a v).2 = { v with preroll := match a.pending with
      | some q => if a.configured then v.preroll else v.preroll.drop (v.preroll.length + 1 - maxPreroll) ++ [q]
      | none => v.preroll } := by
  obtain ⟨_, _, _, _, _, _, configured, _, _, pending, _, _⟩ := a
  cases pending with
  | none => exact ⟨none, rfl, rfl⟩
  | some q =>
    cases configured with
    | true => exact ⟨some q, rfl, rfl⟩
    | false => exact ⟨none, rfl, rfl⟩

/-- Whether parameter sets and the picture size are known. -/
def Known (v : VideoStream) : Prop := v.sps.isSome = true ∧ v.pps.isSome = true ∧ v.width ≠ 0 ∧ v.height ≠ 0

/-- What a picture leaves of a stream: it arrived at a tick, after the picture before. -/
structure Follows (v w : VideoStream) (ticks : Nat) : Prop where
  last : w.lastTicks = some ticks
  previous : w.previousTicks = v.lastTicks
  start : w.lastStart = v.lastStart
  known : v.Known → w.Known

/-- **A frame that is taken** is a picture, which waits where it arrived, or holds parameter sets alone. -/
theorem manage_taken {a b : Assembly} {v w : VideoStream} {f : VideoFrame} {isNew : Bool}
    (h : manage a v f = .ok (isNew, b, w)) :
    ((Frame.video f).sample? = none ∧ b = a ∧ ∃ sps pps, w = { v with sps := sps, pps := pps } ∧
      (v.Known → w.Known)) ∨
    ∃ data isSync phase, (Frame.video f).sample? = some (data, isSync) ∧
      b = { a with
        clock := (a.clock.accept f.pts).1
        pending := some ⟨(a.clock.accept f.pts).1.ticksAt f.pts, data, isSync⟩
        phase := phase } ∧
      v.Follows w ((a.clock.accept f.pts).1.ticksAt f.pts) ∧
      w.preroll = match a.pending with
        | some q => if a.configured then v.preroll else v.preroll.drop (v.preroll.length + 1 - maxPreroll) ++ [q]
        | none => v.preroll := by
  have horElse : ∀ x y : Option NalUnit, y.isSome = true → (x <|> y).isSome = true := fun x y hy => by
    cases x with
    | none => exact hy
    | some => rfl
  unfold manage at h
  simp only at h
  split at h
  · cases h
  · split at h
    · rename_i hc
      cases h
      refine .inl ⟨?_, rfl, _, _, rfl, fun ⟨hs, hp, hsize⟩ => ⟨horElse _ _ hs, horElse _ _ hp, hsize⟩⟩
      unfold Frame.sample?
      simp only
      rw [if_neg (by simpa using hc)]
    · rename_i hc
      cases h
      obtain ⟨q, hassembly, hstream⟩ := keepWaiting_spec (a.accept f.pts).1 _
      have hticks : (a.accept f.pts).2.ticks = (a.clock.accept f.pts).1.ticksAt f.pts := a.clock.accept_ticks f.pts
      refine .inr ⟨sampleData (AnnexB.split f.data), isSync (AnnexB.split f.data), (a.accept f.pts).1.phase, ?_, ?_, ?_,
        congrArg VideoStream.preroll hstream⟩
      · unfold Frame.sample?
        simp only
        rw [if_pos (by simpa using hc)]
      · rw [hassembly, hticks]
        rfl
      · rw [hstream, hticks]
        refine ⟨rfl, rfl, rfl, fun ⟨hs, hp, hw, hh⟩ => ⟨horElse _ _ hs, horElse _ _ hp, ?_⟩⟩
        by_cases hsized : 0 < f.width ∧ 0 < f.height
        · simp only [hsized, and_self, if_true]
          exact ⟨Nat.ne_of_gt hsized.1, Nat.ne_of_gt hsized.2⟩
        · simp only [hsized, if_false]
          exact ⟨hw, hh⟩

/-- A taken picture waits; before the track is configured, behind the preroll.  A frame of parameter sets alone leaves what
waits as it was. -/
theorem manage_ok {a b : Assembly} {v w : VideoStream} {f : VideoFrame} {isNew : Bool}
    (h : manage a v f = .ok (isNew, b, w)) :
    ((Frame.video f).sample? = none ∧ b = a ∧ w.preroll = v.preroll) ∨
    ∃ p clock phase, (Frame.video f).sample? = some (p.data, p.isSync) ∧
      b = { a with clock := clock, pending := some p, phase := phase } ∧
      w.preroll = match a.pending with
        | some q => if a.configured then v.preroll else v.preroll.drop (v.preroll.length + 1 - maxPreroll) ++ [q]
        | none => v.preroll := by
  rcases manage_taken h with ⟨hnone, ha, sps, pps, rfl, -⟩ | ⟨data, isSync, phase, hsample, hb, -, hpreroll⟩
  · exact .inl ⟨hnone, ha, rfl⟩
  · exact .inr ⟨⟨_, data, isSync⟩, _, phase, hsample, hb, hpreroll⟩

/-- **The timing comes from the last two pictures**, once all else is known. -/
theorem configure_ok {a b : Assembly} {v : VideoStream} (h : configure a v = .ok b) :
    v.Known ∧ ∃ last previous, v.lastTicks = some last ∧ v.previousTicks = some previous ∧
      b = a.configure (if previous < last then last - previous else a.clock.frameTicks) := by
  unfold configure at h
  split at h
  · cases h
  · rename_i hsps
    split at h
    · cases h
    · rename_i hpps
      split at h
      · cases h
      · rename_i hsize
        obtain ⟨hwidth, hheight⟩ := not_or.1 hsize
        split at h
        · rename_i last previous hlast hprevious
          simp only at h
          refine ⟨⟨?_, ?_, hwidth, hheight⟩, last, previous, hlast, hprevious, ?_⟩
          · simpa [Option.isSome_iff_ne_none] using hsps
          · simpa [Option.isSome_iff_ne_none] using hpps
          · generalize (if previous < last then last - previous else a.clock.frameTicks) = ticks at h ⊢
            split at h <;> cases h
            rfl
        · cases h

theorem frameTicks_configure {a b : Assembly} {v : VideoStream} (h : configure a v = .ok b) : 0 < b.clock.frameTicks := by
  obtain ⟨⟨hsps, hpps, hwidth, hheight⟩, last, previous, hlast, hprevious, rfl⟩ := configure_ok h
  unfold configure at h
  rw [if_neg (by simpa using Option.isSome_iff_ne_none.1 hsps), if_neg (by simpa using Option.isSome_iff_ne_none.1 hpps),
    if_neg (not_or.2 ⟨hwidth, hheight⟩), hlast, hprevious] at h
  show 0 < if previous < last then last - previous else a.clock.frameTicks
  simp only at h
  generalize (if previous < last then last - previous else a.clock.frameTicks) = ticks at h ⊢
  split at h
  · cases h
  · exact Nat.pos_of_ne_zero ‹_›

theorem configure_of_known (a : Assembly) {v : VideoStream} {last previous : Nat} (hk : v.Known)
    (hlast : v.lastTicks = some last) (hprevious : v.previousTicks = some previous) (hlt : previous < last) :
    configure a v = .ok (a.configure (last - previous)) := by
  obtain ⟨hsps, hpps, hwidth, hheight⟩ := hk
  have hn : ∀ {x : Option NalUnit}, x.isSome = true → ¬x.isNone = true := fun hx => by
    simpa [Option.isSome_iff_ne_none] using hx
  have hpos : ¬last - previous = 0 := by omega
  unfold configure
  rw [if_neg (hn hsps), if_neg (hn hpps), if_neg (not_or.2 ⟨hwidth, hheight⟩), hlast, hprevious]
  simp only [if_pos hlt, if_neg hpos]

end VideoStream

/-! ## The operations of a segmenter by its kind -/

theorem ok_of_map {ε α β : Type} {x : Except ε α} {f : α → β} {b : β} (h : x.map f = .ok b) :
    ∃ a, x = .ok a ∧ f a = b := by
  cases x with
  | error e => cases h
  | ok a => exact ⟨a, rfl, Except.ok.inj h⟩

namespace Segmenter

theorem exists_video {s : Segmenter} (h : s.kind = .video) : ∃ a v, s = ⟨a, .video v⟩ := by
  obtain ⟨a, stream⟩ := s
  cases stream with
  | audio v => cases h
  | video v => exact ⟨a, v, rfl⟩

theorem manage_audio (a : Assembly) (v : AudioStream) (f : AudioFrame) :
    manage ⟨a, .audio v⟩ (.audio f) = (AudioStream.manage a v f).map fun r => (r.1, ⟨r.2.1, .audio r.2.2⟩) := by
  show (AudioStream.manage a v f >>= _) = _
  cases AudioStream.manage a v f <;> rfl

theorem manage_video (a : Assembly) (v : VideoStream) (f : VideoFrame) :
    manage ⟨a, .video v⟩ (.video f) = (VideoStream.manage a v f).map fun r => (r.1, ⟨r.2.1, .video r.2.2⟩) := by
  show (VideoStream.manage a v f >>= _) = _
  cases VideoStream.manage a v f <;> rfl

theorem configure_audio (a : Assembly) (v : AudioStream) :
    configure ⟨a, .audio v⟩ = (AudioStream.configure a v).map fun b => ⟨b, .audio v⟩ := by
  show (AudioStream.configure a v >>= _) = _
  cases AudioStream.configure a v <;> rfl

theorem configure_video (a : Assembly) (v : VideoStream) :
    configure ⟨a, .video v⟩ = (VideoStream.configure a v).map fun b => ⟨b, .video v⟩ := by
  show (VideoStream.configure a v >>= _) = _
  cases VideoStream.configure a v <;> rfl

/-- **The configuration gives the track a frame duration**, and moves nothing. -/
theorem configure_sets {s g : Segmenter} (h : s.configure = .ok g) : ∃ ticks, 0 < ticks ∧
    g = { s with assembly := s.assembly.configure ticks } := by
  obtain ⟨a, stream⟩ := s
  cases stream with
  | audio v =>
    rw [configure_audio] at h
    obtain ⟨b, hc, rfl⟩ := ok_of_map h
    obtain ⟨ticks, hpos, rfl⟩ := AudioStream.configure_ok hc
    exact ⟨ticks, hpos, rfl⟩
  | video v =>
    rw [configure_video] at h
    obtain ⟨b, hc, rfl⟩ := ok_of_map h
    have hpos := VideoStream.frameTicks_configure hc
    obtain ⟨-, last, previous, -, -, rfl⟩ := VideoStream.configure_ok hc
    exact ⟨_, hpos, rfl⟩

theorem configure_state {s g : Segmenter} (h : s.configure = .ok g) : ∃ ticks phase, g = { s with assembly :=
    { s.assembly with clock := { s.assembly.clock with frameTicks := ticks }, configured := true, phase := phase } } := by
  obtain ⟨ticks, -, rfl⟩ := configure_sets h
  exact ⟨ticks, _, rfl⟩

/-- **A frame that is taken is of the segmenter's kind**, and the stream of that kind took it. -/
theorem manage_cases {s g : Segmenter} {frame : Frame} {isNew : Bool} (h : s.manage frame = .ok (isNew, g)) :
    (∃ a v f b w, s = ⟨a, .audio v⟩ ∧ frame = .audio f ∧ AudioStream.manage a v f = .ok (isNew, b, w) ∧
      g = ⟨b, .audio w⟩) ∨
    (∃ a v f b w, s = ⟨a, .video v⟩ ∧ frame = .video f ∧ VideoStream.manage a v f = .ok (isNew, b, w) ∧
      g = ⟨b, .video w⟩) := by
  obtain ⟨a, stream⟩ := s
  cases stream with
  | audio v =>
    cases frame with
    | video f => cases h
    | audio f =>
      rw [manage_audio] at h
      obtain ⟨⟨isNew', b, w⟩, hm, hg⟩ := ok_of_map h
      cases hg
      exact .inl ⟨a, v, f, b, w, rfl, rfl, hm, rfl⟩
  | video v =>
    cases frame with
    | audio f => cases h
    | video f =>
      rw [manage_video] at h
      obtain ⟨⟨isNew', b, w⟩, hm, hg⟩ := ok_of_map h
      cases hg
      exact .inr ⟨a, v, f, b, w, rfl, rfl, hm, rfl⟩

theorem append_audio {a : Assembly} (v : AudioStream) (slot : Slot) (h : a.configured = true) :
    append ⟨a, .audio v⟩ slot = ⟨(AudioStream.append a v slot).result,
      ⟨(AudioStream.append a v slot).state.1, .audio (AudioStream.append a v slot).state.2⟩,
      (AudioStream.append a v slot).slot⟩ := by
  simp [append, h]

theorem append_video {a : Assembly} (v : VideoStream) (slot : Slot) (h : a.configured = true) :
    append ⟨a, .video v⟩ slot = ⟨(VideoStream.append a v slot).result,
      ⟨(VideoStream.append a v slot).state.1, .video (VideoStream.append a v slot).state.2⟩,
      (VideoStream.append a v slot).slot⟩ := by
  simp [append, h]

/-! ## What the other operations leave alone -/

theorem manage_state {s g : Segmenter} {frame : Frame} {isNew : Bool} (h : s.manage frame = .ok (isNew, g)) :
    g.kind = s.kind ∧ ∃ clock pending phase,
      g.assembly = { s.assembly with clock := clock, pending := pending, phase := phase } := by
  rcases manage_cases h with ⟨a, v, f, b, w, rfl, rfl, hm, rfl⟩ | ⟨a, v, f, b, w, rfl, rfl, hm, rfl⟩
  · obtain ⟨data, phase, -, rfl, -⟩ := AudioStream.manage_ok hm
    exact ⟨rfl, _, _, _, rfl⟩
  · rcases VideoStream.manage_ok hm with ⟨-, rfl, -⟩ | ⟨p, clock, phase, -, rfl, -⟩
    · exact ⟨rfl, b.clock, b.pending, b.phase, rfl⟩
    · exact ⟨rfl, clock, some p, phase, rfl⟩

theorem append_of_unconfigured {s : Segmenter} (h : s.assembly.configured = false) (slot : Slot) :
    s.append slot = ⟨.error .notConfigured, s, slot⟩ := by
  rw [append, if_pos (by rw [h]; rfl)]

theorem append_moved {s : Segmenter} (h : s.assembly.configured = true) (slot : Slot) : (s.append slot).state.kind = s.kind ∧
    Assembly.Moved { s.assembly with pending := none } (s.append slot).state.assembly := by
  obtain ⟨a, stream⟩ := s
  cases stream with
  | audio v =>
    rw [append_audio v slot h]
    exact ⟨rfl, AudioStream.append_moved a v slot⟩
  | video v =>
    rw [append_video v slot h]
    exact ⟨rfl, (VideoStream.append_moved a v slot).1⟩

theorem absorb_moved (s : Segmenter) : s.absorb.kind = s.kind ∧
    Assembly.Moved { s.assembly with pending := none } s.absorb.assembly := by
  obtain ⟨a, stream⟩ := s
  cases stream with
  | audio v => exact ⟨rfl, AudioStream.absorb_moved a⟩
  | video v => exact ⟨rfl, (VideoStream.absorb_moved a v).1⟩

theorem append_keeps (s : Segmenter) (slot : Slot) :
    (s.append slot).state.kind = s.kind ∧ (s.append slot).state.assembly.described = s.assembly.described := by
  cases hc : s.assembly.configured with
  | false =>
    rw [append_of_unconfigured hc]
    exact ⟨rfl, rfl⟩
  | true =>
    obtain ⟨hkind, g, n, phase, hstate⟩ := append_moved hc slot
    exact ⟨hkind, by rw [hstate]⟩

theorem absorb_keeps (s : Segmenter) :
    s.absorb.kind = s.kind ∧ s.absorb.assembly.described = s.assembly.described := by
  obtain ⟨hkind, g, n, phase, hstate⟩ := s.absorb_moved
  exact ⟨hkind, by rw [hstate]⟩

@[simp] theorem kind_flush (s : Segmenter) : s.flush.kind = s.kind := by
  cases hs : s.stream <;> simp [kind, flush, hs]

/-- **The endings of `describe`**: it fails, the initialization segment was made before, or it is made now. -/
theorem describe_cases (s : Segmenter) (slot : Slot) :
    (s.describe slot).state.kind = s.kind ∧ (s.describe slot).state.assembly.fragment = s.assembly.fragment ∧
    (((∃ failure, (s.describe slot).result = .error failure) ∧
        (s.describe slot).state.assembly.described = s.assembly.described) ∨
     ((s.describe slot).result = .ok false ∧ s.assembly.described = true ∧
        (s.describe slot).state.assembly.described = true) ∨
     ((s.describe slot).result = .ok true ∧ s.assembly.described = false ∧
        (s.describe slot).state.assembly.described = true)) := by
  unfold describe
  split
  · exact ⟨rfl, rfl, .inl ⟨⟨_, rfl⟩, rfl⟩⟩
  · split
    · rename_i hd
      exact ⟨rfl, rfl, .inr (.inl ⟨rfl, hd, hd⟩)⟩
    · rename_i hd
      split
      · exact ⟨rfl, rfl, .inl ⟨⟨_, rfl⟩, rfl⟩⟩
      · unfold Assembly.describe
        split
        · exact ⟨rfl, rfl, .inl ⟨⟨_, rfl⟩, rfl⟩⟩
        · exact ⟨rfl, rfl, .inr (.inr ⟨rfl, by simpa using hd, rfl⟩)⟩

/-- The initialization segment does not touch the clock, the stream or what is open. -/
theorem describe_state (s : Segmenter) (slot : Slot) : ∃ metadata described, (s.describe slot).state =
    { s with assembly := { s.assembly with metadata := metadata, described := described } } := by
  have same : ∃ metadata described,
      s = { s with assembly := { s.assembly with metadata := metadata, described := described } } :=
    ⟨s.assembly.metadata, s.assembly.described, rfl⟩
  unfold describe
  split
  · exact same
  · split
    · exact same
    · split
      · exact same
      · rename_i metadata track _
        unfold Assembly.describe
        split
        · exact ⟨metadata, s.assembly.described, rfl⟩
        · exact ⟨metadata, true, rfl⟩

/-- Whether a segmenter differs only in its origin, its bitrate and what is noted of the initialization segment. -/
def Relabelled (s g : Segmenter) : Prop := ∃ zero metadata bitrate described, g =
  { s with assembly := { s.assembly with
      clock := { s.assembly.clock with origin := zero }, metadata := metadata, bitrate := bitrate,
      described := described } }

theorem relabelled_describe (s : Segmenter) (slot : Slot) : s.Relabelled (s.describe slot).state := by
  have same : s.Relabelled s :=
    ⟨s.assembly.clock.origin, s.assembly.metadata, s.assembly.bitrate, s.assembly.described, rfl⟩
  unfold describe
  split
  · exact same
  · split
    · exact same
    · split
      · exact same
      · rename_i metadata track _
        unfold Assembly.describe
        split
        · exact ⟨s.assembly.clock.origin, metadata, s.assembly.bitrate, s.assembly.described, rfl⟩
        · exact ⟨s.assembly.clock.origin, metadata, s.assembly.bitrate, true, rfl⟩

theorem relabelled_setOrigin (s : Segmenter) (origin : Nanos) : s.Relabelled (s.setOrigin origin).2 := by
  unfold setOrigin Clock.setOrigin
  split
  rename_i h
  split at h <;> cases h
  · exact ⟨s.assembly.clock.origin, s.assembly.metadata, s.assembly.bitrate, s.assembly.described, rfl⟩
  · exact ⟨some origin, s.assembly.metadata, s.assembly.bitrate, s.assembly.described, rfl⟩

theorem relabelled_setBitrate (s : Segmenter) (bitrate : Nat) : s.Relabelled (s.setBitrate bitrate) :=
  ⟨s.assembly.clock.origin, s.assembly.metadata, bitrate, s.assembly.described, rfl⟩

/-- **`finish` needs a free slot**; then it appends what waits and closes. -/
theorem finish_cases (s : Segmenter) (slot : Slot) :
    (slot.isEmpty = false ∧ s.finish slot = ⟨.error (.violation (.finishWhileHolding s.assembly.track)), s, slot⟩) ∨
    (slot.isEmpty = true ∧ (s.finish slot).result = (s.absorb.assembly.close slot).result ∧
      (s.finish slot).slot = (s.absorb.assembly.close slot).slot ∧ ∃ phase, (s.finish slot).state =
        { s.absorb with assembly := { (s.absorb.assembly.close slot).state with phase := phase } }) := by
  unfold finish
  cases h : slot.isEmpty with
  | false => exact .inl ⟨rfl, rfl⟩
  | true =>
    refine .inr ⟨rfl, ?_⟩
    simp only [Bool.not_true, Bool.false_eq_true, if_false]
    split
    · rename_i e he
      exact ⟨he.symm, rfl, (s.absorb.assembly.close slot).state.phase, rfl⟩
    · rename_i filled he
      exact ⟨he.symm, rfl, .finishing, rfl⟩

/-- **What `finish` leaves**: the slot as it was unless it was filled, and nothing open if the slot was free. -/
theorem finish_keeps (s : Segmenter) (slot : Slot) :
    (s.finish slot).state.kind = s.kind ∧ (s.finish slot).state.assembly.described = s.assembly.described ∧
    (slot.isEmpty = true → (s.finish slot).state.assembly.fragment.isEmpty = true) ∧
    ((s.finish slot).result = .ok true ∨ (s.finish slot).slot = slot) := by
  rcases s.finish_cases slot with ⟨hn, he⟩ | ⟨-, hresult, hslot, phase, hstate⟩
  · rw [he]
    refine ⟨rfl, rfl, fun h => ?_, .inr rfl⟩
    rw [hn] at h
    cases h
  · obtain ⟨hk, hd⟩ := s.absorb_keeps
    obtain ⟨g, n, phase', hst, hg⟩ := s.absorb.assembly.close_state slot
    rw [hstate, hst, hresult, hslot]
    refine ⟨hk, hd, fun _ => hg, ?_⟩
    rcases s.absorb.assembly.close_cases slot with ⟨-, hc⟩ | ⟨-, -, -, hs⟩ | ⟨-, hr, -⟩
    · exact .inr (by rw [hc])
    · exact .inr hs
    · exact .inl hr

/-! ## What is kept -/

/-- A relation of segmenters before and after, which every operation but a change of the bitrate keeps to. -/
structure Inherited (R : Segmenter → Segmenter → Prop) : Prop where
  refl : ∀ s, R s s
  trans : ∀ {s g t}, R s g → R g t → R s t
  manage : ∀ {s g frame isNew}, s.manage frame = .ok (isNew, g) → R s g
  configure : ∀ {s g}, s.configure = .ok g → R s g
  describe : ∀ s slot, R s (s.describe slot).state
  append : ∀ s slot, R s (s.append slot).state
  finish : ∀ s slot, R s (s.finish slot).state
  flush : ∀ s, R s s.flush
  setOrigin : ∀ s origin, R s (s.setOrigin origin).2

theorem Inherited.mono {R S : Segmenter → Segmenter → Prop} (hR : Inherited R) (h : ∀ {s g}, R s g → S s g)
    (refl : ∀ s, S s s) (trans : ∀ {s g t}, S s g → S g t → S s t) : Inherited S :=
  ⟨refl, trans, fun hm => h (hR.manage hm), fun hc => h (hR.configure hc), fun s slot => h (hR.describe s slot),
    fun s slot => h (hR.append s slot), fun s slot => h (hR.finish s slot), fun s => h (hR.flush s),
    fun s origin => h (hR.setOrigin s origin)⟩

end Segmenter
end Packager

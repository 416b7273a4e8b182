import Packager.Proofs.AudioSession
import Packager.Proofs.SampleTimes
/-!
# Proofs.AudioTimeline — audio samples stay where the clock expected them

Every audio sample in a placed segment has the tick at which its frame was expected as its decode time, whether a jump
of the clock was met by an early cut or by stretching a sample while the slot was held (`placed_on_timeline`).  The
invariant between frames is that the open fragment ends one frame duration after the last expected tick; with a frame
waiting, that it ends where the frame is expected, or before it and can be stretched up to it.
-/
namespace Packager

namespace Clock

/-- Whether the clock stays in pace with a frame, or jumps forward by a gap that a frame can be stretched over. -/
def KeepsOrdered (c : Clock) (pts : Nanos) : Prop :=
  (c.accept pts).2.drifted = true →
    c.expected + c.frameTicks < (c.accept pts).2.ticks ∧
    (c.accept pts).2.ticks - (c.expected + c.frameTicks) + c.frameTicks < 2 ^ 32

instance (c : Clock) (pts : Nanos) : Decidable (c.KeepsOrdered pts) := inferInstanceAs (Decidable (_ → _))

/-- **The endings of `accept`**: the first frame, a frame in pace, and a jump to the frame. -/
theorem accept_cases (c : Clock) (pts : Nanos) (hd : c.offset.isSome = true → 0 < c.frameTicks) :
    (c.accept pts).1.offset.isSome = true ∧ (c.accept pts).1.frameTicks = c.frameTicks ∧
    ((c.offset.isSome = false ∧ (c.accept pts).2.drifted = false) ∨
     (c.offset.isSome = true ∧ (c.accept pts).2.drifted = false ∧
       (c.accept pts).1.expected = c.expected + c.frameTicks) ∨
     (c.offset.isSome = true ∧ (c.accept pts).2.drifted = true ∧
       (c.accept pts).1.expected = (c.accept pts).2.ticks)) := by
  unfold accept
  cases h : c.offset with
  | none => exact ⟨rfl, rfl, .inl ⟨rfl, rfl⟩⟩
  | some offset =>
    have hpos := hd (by rw [h]; rfl)
    simp only [if_neg (Nat.ne_of_gt hpos)]
    split
    · exact ⟨rfl, rfl, .inr (.inr ⟨rfl, rfl, rfl⟩)⟩
    · exact ⟨rfl, rfl, .inr (.inl ⟨rfl, rfl, rfl⟩)⟩

end Clock

namespace AudioStream

/-- What the open fragment is like before a frame at tick `next` is appended: it ends there, or the clock has jumped over
a gap that its last sample can be stretched over. -/
structure Meets (a : Assembly) (v : AudioStream) (next : Nat) : Prop where
  tallied : a.fragment.Tallied
  gap : a.fragment.isEmpty = false →
    (v.resync = false ∧ a.fragment.stop = next) ∨
    (v.resync = true ∧ a.fragment.stop < next ∧
      a.fragment.lastTicks + (next - a.fragment.stop) ≤ OpenFragment.longest)

/-- The samples so far, `placed` and open, are those of a time line up to `rest`. -/
def OnLine (line : List (Nat × Bytes)) (placed : List Slot) (f : OpenFragment) (rest : List (Nat × Bytes)) (next : Nat) :
    Prop :=
  ∃ groups kept, Filed line placed (f.timed ++ rest) (f.opening next) groups kept

/-- **A jump is settled before the frame is appended**: afterwards the fragment is empty or ends at the frame. -/
theorem resynchronize_settles {a : Assembly} {v : AudioStream} {next : Nat} (slot : Slot) (hm : Meets a v next)
    {line rest : List (Nat × Bytes)} {placed : List Slot} (hl : OnLine line placed a.fragment rest next) :
    let out := resynchronize a v next slot
    ∃ g n phase, out.state.1 = { a with fragment := g, nextSequence := n, phase := phase } ∧
      out.state.2.resync = false ∧ g.Tallied ∧ (g.isEmpty = false → g.stop = next) ∧
      OnLine line (placed ++ out.made) g rest next := by
  intro out
  obtain ⟨groups, kept, hl⟩ := hl
  have ho : out = resynchronize a v next slot := rfl
  rcases resynchronize_cases a v next slot with ⟨hq, he⟩ | ⟨hr, hn, hc⟩
  · rw [ho, he]
    refine ⟨a.fragment, a.nextSequence, a.phase, rfl, rfl, hm.tallied, fun hn => ?_, groups, kept, ?_⟩
    · rw [hn] at hq
      rcases hm.gap hn with ⟨-, hstop⟩ | ⟨hr, -⟩
      · exact hstop
      · simp [hr] at hq
    · simpa [Outcome.made] using hl
  · obtain ⟨hlt, hfit⟩ : a.fragment.stop < next ∧
        a.fragment.lastTicks + (next - a.fragment.stop) ≤ OpenFragment.longest := by
      rcases hm.gap hn with ⟨hr', -⟩ | ⟨-, hgap⟩
      · rw [hr] at hr'
        cases hr'
      · exact hgap
    obtain ⟨g, hb, hgn, hgt, hgs, hgstop, hgtimed⟩ := OpenFragment.bridge?_of_gap hn hm.tallied hlt hfit
    rcases hc with ⟨-, he⟩ | ⟨-, g', hg', he⟩ | ⟨-, hnone, -⟩
    · -- the slot is free: the fragment that ends before the jump is cut
      obtain ⟨g, n, phase, hst, hg⟩ := a.close_state slot
      obtain ⟨groups', kept', hl'⟩ := hl.close slot hm.tallied (fun _ => Nat.le_of_lt hlt)
      rw [ho, he]
      refine ⟨g, n, phase, hst, rfl, OpenFragment.tallied_of_isEmpty hg, fun h => ?_, groups', kept', ?_⟩
      · rw [hg] at h
        cases h
      · rw [OpenFragment.timed_of_isEmpty hg, OpenFragment.opening_of_isEmpty hg]
        exact hl'
    · -- the slot is held: the last sample is stretched up to the frame
      rw [hb] at hg'
      cases hg'
      rw [ho, he]
      refine ⟨g, a.nextSequence, a.phase, rfl, rfl, hgt, fun _ => hgstop, groups, kept, ?_⟩
      rw [hgtimed, OpenFragment.opening_of_nonempty hgn, hgs, ← OpenFragment.opening_of_nonempty hn next]
      simpa [Outcome.made] using hl
    · rw [hb] at hnone
      cases hnone

/-- The state between two frames: nothing waits, and the open fragment ends one frame duration after the last expected
tick.  Before the first frame there is no fragment and no slot was filled. -/
structure Between (line : List (Nat × Bytes)) (placed : List Slot) (a : Assembly) (v : AudioStream) : Prop where
  pending : a.pending = none
  resync : v.resync = false
  pace : a.clock.offset.isSome = true → 0 < a.clock.frameTicks ∧ a.clock.frameTicks ≤ OpenFragment.longest
  fresh : a.clock.offset.isSome = false → a.fragment.isEmpty = true ∧ placed = []
  tallied : a.fragment.Tallied
  stop : a.fragment.isEmpty = false →
    a.fragment.stop = a.clock.expected + a.clock.frameTicks ∧ a.fragment.lastTicks = a.clock.frameTicks
  line : OnLine line placed a.fragment [] (a.clock.expected + a.clock.frameTicks)

/-- The state while a frame waits. -/
structure Waiting (line : List (Nat × Bytes)) (placed : List Slot) (a : Assembly) (v : AudioStream) : Prop where
  offset : a.clock.offset.isSome = true
  frame : ∃ data, a.pending = some ⟨a.clock.expected, data, true⟩ ∧
    OnLine line placed a.fragment [(a.clock.expected, data)] a.clock.expected
  meets : Meets a v a.clock.expected

/-- **Taking a frame**: the fragment meets it, since the clock stays in pace or jumps forward. -/
theorem Between.manage {line : List (Nat × Bytes)} {placed : List Slot} {a b : Assembly} {v w : AudioStream}
    {f : AudioFrame} {isNew : Bool} (hb : Between line placed a v) (hk : a.clock.KeepsOrdered f.pts)
    (h : AudioStream.manage a v f = .ok (isNew, b, w)) : ∃ data, (Frame.audio f).sample? = some (data, true) ∧
      Waiting (line ++ [(b.clock.expected, data)]) placed b w := by
  obtain ⟨data, phase, hd, rfl, hw⟩ := manage_ok h
  refine ⟨data, hd, ?_⟩
  obtain ⟨hoff, -, hc⟩ := a.clock.accept_cases f.pts (fun ho => (hb.pace ho).1)
  refine ⟨hoff, ⟨data, rfl, ?_⟩, hb.tallied, fun hn => ?_⟩
  · obtain ⟨groups, kept, hl⟩ := hb.line
    rw [List.append_nil] at hl
    refine ⟨groups, kept, Filed.taken ?_ _⟩
    rcases hc with ⟨hno, -⟩ | ⟨-, -, he⟩ | ⟨-, hdr, he⟩
    · obtain ⟨-, rfl⟩ := hb.fresh hno
      exact hl.of_unplaced _
    · exact hl.mono (a.fragment.opening_mono (Nat.le_of_eq he.symm))
    · refine hl.mono (a.fragment.opening_mono ?_)
      rw [he]
      exact Nat.le_of_lt (hk hdr).1
  · have ho : a.clock.offset.isSome = true := by
      by_contra ho
      have := (hb.fresh (by simpa using ho)).1
      rw [hn] at this
      cases this
    obtain ⟨hstop, hlast⟩ := hb.stop hn
    rcases hc with ⟨hno, -⟩ | ⟨-, hdr, he⟩ | ⟨-, hdr, he⟩
    · rw [hno] at ho
      cases ho
    · refine .inl ⟨?_, ?_⟩
      · rw [hw, hb.resync, hdr]
        rfl
      · exact hstop.trans he.symm
    · obtain ⟨hlt, hfit⟩ := hk hdr
      refine .inr ⟨?_, ?_, ?_⟩
      · rw [hw, hdr, hn, Bool.or_eq_true]
        exact .inr rfl
      · show a.fragment.stop < _
        rw [hstop, he]
        exact hlt
      · show a.fragment.lastTicks + (_ - a.fragment.stop) ≤ _
        rw [hlast, hstop, he, Nat.add_comm]
        exact Nat.le_sub_one_of_lt hfit

theorem Between.push {line : List (Nat × Bytes)} {placed : List Slot} {a : Assembly} {v : AudioStream} {data : Bytes}
    (hp : a.pending = none) (hr : v.resync = false) (ho : a.clock.offset.isSome = true) (hpos : 0 < a.clock.frameTicks)
    (hfit : a.clock.frameTicks ≤ OpenFragment.longest) (ht : a.fragment.Tallied)
    (hs : a.fragment.isEmpty = false → a.fragment.stop = a.clock.expected)
    (hl : OnLine line placed a.fragment [(a.clock.expected, data)] a.clock.expected) :
    Between line placed (a.push ⟨a.clock.expected, data, true⟩) v := by
  have hticks : a.sampleTicks.toNat = a.clock.frameTicks := Assembly.toNat_sampleTicks hfit
  refine ⟨hp, hr, fun _ => ⟨hpos, hfit⟩, fun hn => ?_, OpenFragment.tallied_push _ ht, fun _ => ⟨?_, ?_⟩, ?_⟩
  · rw [show (a.push ⟨a.clock.expected, data, true⟩).clock = a.clock from rfl, ho] at hn
    cases hn
  · exact (OpenFragment.stop_push _ hs).trans (by rw [hticks]; rfl)
  · exact (OpenFragment.lastTicks_push _ _ _).trans hticks
  · obtain ⟨groups, kept, hl⟩ := hl
    refine ⟨groups, kept, ?_⟩
    show Filed line placed ((a.fragment.push a.clock.expected ⟨a.sampleTicks, true, data⟩).timed ++ [])
      ((a.fragment.push a.clock.expected ⟨a.sampleTicks, true, data⟩).opening _) groups kept
    rw [OpenFragment.timed_push _ ht hs, OpenFragment.opening_push, List.append_nil]
    exact hl

/-- **A cut between two frames** leaves the state between two frames. -/
theorem Between.close {line : List (Nat × Bytes)} {placed : List Slot} {a : Assembly} {v : AudioStream} (slot : Slot)
    (hb : Between line placed a v) : Between line (placed ++ (a.close slot).made) (a.close slot).state v := by
  obtain ⟨groups, kept, hl⟩ := hb.line
  obtain ⟨groups', kept', hl'⟩ := hl.close slot hb.tallied (fun hn => Nat.le_of_eq (hb.stop hn).1)
  have hmade : a.fragment.isEmpty = true → (a.close slot).made = [] := by
    intro he
    unfold Assembly.close
    rw [he]
    rfl
  obtain ⟨g, n, phase, hst, hg⟩ := a.close_state slot
  rw [hst]
  refine ⟨hb.pending, hb.resync, hb.pace, fun hf => ?_, OpenFragment.tallied_of_isEmpty hg, fun hn => ?_,
    groups', kept', ?_⟩
  · obtain ⟨he, hp⟩ := hb.fresh hf
    rw [hmade he, hp]
    exact ⟨hg, rfl⟩
  · rw [hg] at hn
    cases hn
  · rw [OpenFragment.timed_of_isEmpty hg, OpenFragment.opening_of_isEmpty hg]
    exact hl'

/-- **Appending the waiting frame** leads back to the state between two frames, whatever was cut on the way. -/
theorem Waiting.append {line : List (Nat × Bytes)} {placed : List Slot} {a : Assembly} {v : AudioStream} (slot : Slot)
    (hw : Waiting line placed a v) (hpos : 0 < a.clock.frameTicks) (hfit : a.clock.frameTicks ≤ OpenFragment.longest) :
    Between line (placed ++ (AudioStream.append a v slot).made) (AudioStream.append a v slot).state.1
      (AudioStream.append a v slot).state.2 := by
  obtain ⟨hoff, ⟨data, hp, hl⟩, hm⟩ := hw
  obtain ⟨g, n, phase, hst, hr, hgt, hgs, hgl⟩ :=
    resynchronize_settles (a := { a with pending := none }) slot ⟨hm.tallied, hm.gap⟩ hl
  unfold AudioStream.append
  rw [hp]
  simp only
  generalize resynchronize { a with pending := none } v a.clock.expected slot = cut at hst hr hgl
  rw [hst]
  have hb := Between.push (a := { a with pending := none, fragment := g, nextSequence := n, phase := phase })
    rfl hr hoff hpos hfit hgt hgs hgl
  split
  · rename_i hf
    -- nothing was cut before the frame, so the fragment may be cut after it
    have hmade : cut.made = [] := by rw [Outcome.made, hf]
    rw [hmade, List.append_nil] at hb
    split
    · exact hb.close cut.slot
    · exact (List.append_nil placed).symm ▸ hb
  · exact hb

end AudioStream

/-! ## Runs -/

/-- The samples that the frames of a history make, each at the tick where its frame was expected. -/
def Moment.timeline (history : List Moment) : List (Nat × Bytes) :=
  history.filterMap fun
    | .taken frame clock => frame.sample?.map fun sample => (clock.expected, sample.1)
    | _ => none

theorem Moment.timeline_append (h k : List Moment) : timeline (h ++ k) = timeline h ++ timeline k :=
  List.filterMap_append

namespace Session

/-- What the caller of an audio session promises: one frame after the other, each configured and appended, with a clock
that stays in pace or jumps forward. -/
def AudioInTurn (s : Session) : Call → Prop
  | .manage frame =>
    s.due = .manage ∧
    match frame with
    | .audio f => (Frame.audio f).sample?.isSome = true → s.assembly.clock.KeepsOrdered f.pts
    | .video _ => True
  | .configure =>
    s.due = .configure ∧
    match s.segmenter.configure with
    | .ok g => g.assembly.clock.frameTicks < 2 ^ 32
    | .error _ => False
  | .append => s.due = .append
  | .finish => s.due = .manage
  | .flush => False
  | .describe _ | .setOrigin _ | .setBitrate _ | .clear => True

instance (s : Session) : ∀ call, Decidable (s.AudioInTurn call)
  | .manage (.audio _) => inferInstanceAs (Decidable (_ ∧ (_ → _)))
  | .manage (.video _) => inferInstanceAs (Decidable (_ ∧ True))
  | .configure => inferInstanceAs (Decidable (s.AudioInOrder .configure))
  | .append | .finish => inferInstanceAs (Decidable (_ = _))
  | .flush => inferInstanceAs (Decidable False)
  | .describe _ | .setOrigin _ | .setBitrate _ | .clear => inferInstanceAs (Decidable True)

/-- The invariant of an audio session. -/
def OnTime (s : Session) : Prop :=
  ∃ a v, s.segmenter = ⟨a, .audio v⟩ ∧
    match s.due with
    | .manage => AudioStream.Between (Moment.timeline s.history) s.placed a v
    | .configure => AudioStream.Waiting (Moment.timeline s.history) s.placed a v
    | .append => AudioStream.Waiting (Moment.timeline s.history) s.placed a v ∧ a.configured = true ∧
        0 < a.clock.frameTicks ∧ a.clock.frameTicks ≤ OpenFragment.longest

theorem onTime_start (plan : SegmenterPlan) (capacity : Nat) : OnTime (start .audio plan capacity) := by
  refine ⟨.start plan, .start, rfl, rfl, rfl, fun h => ?_, fun _ => ⟨rfl, rfl⟩,
    OpenFragment.tallied_of_isEmpty rfl, fun h => ?_, [], [], .nothing _⟩
  · cases h
  · cases h

theorem AudioInTurn.inOrder {s : Session} {call : Call} (h : s.AudioInTurn call) : s.AudioInOrder call := by
  cases call with
  | manage frame => exact h.1
  | configure => exact h
  | append => exact h
  | finish => exact h
  | flush => exact h.elim
  | describe | setOrigin | setBitrate | clear => trivial

/-- The state between two frames and the state while one waits, on the time line of what was taken. -/
def onTimeline : AudioInvariant fun a f => a.clock.KeepsOrdered f.pts where
  between history placed a v := AudioStream.Between (Moment.timeline history) placed a v
  waiting history placed a v := AudioStream.Waiting (Moment.timeline history) placed a v
  pending hb := hb.pending
  manage hb hk h := by
    obtain ⟨data, hdata, hw⟩ := hb.manage hk h
    rw [Moment.timeline_append]
    simpa [Moment.timeline, hdata] using hw
  configure ticks phase hw := ⟨hw.offset, hw.frame, hw.meets.tallied, hw.meets.gap⟩
  append slot hw hpos hfit := hw.append slot hpos hfit
  close slot hb := hb.close slot
  rephase phase hb := ⟨hb.pending, hb.resync, hb.pace, hb.fresh, hb.tallied, hb.stop, hb.line⟩
  relabel zero metadata bitrate described hb :=
    ⟨hb.pending, hb.resync, hb.pace, hb.fresh, hb.tallied, hb.stop, hb.line⟩
  relabelWaiting zero metadata bitrate described hw := ⟨hw.offset, hw.frame, hw.meets.tallied, hw.meets.gap⟩
  finished hb := by
    rw [Moment.timeline_append]
    exact (List.append_nil _).symm ▸ hb
  configured hw := by
    rw [Moment.timeline_append]
    exact (List.append_nil _).symm ▸ hw

theorem onTime_apply (s : Session) (call : Call) (h : s.OnTime) (hr : s.AudioInTurn call) : (s.apply call).OnTime := by
  have hflush : call ≠ .flush := by
    rintro rfl
    exact hr
  have hobeys : s.Obeys onTimeline := h
  refine obeys_apply hobeys hr.inOrder hflush fun f hf hs => ?_
  subst hf
  exact hr.2 hs

/-- **Every audio sample in a placed segment lies where its frame was expected.**  The samples are the time line cut into
groups, of which the placed slots hold those that were not lost; each sample has its frame's expected tick as decode
time, and no segment starts before the end of an earlier one. -/
theorem placed_on_timeline (plan : SegmenterPlan) (capacity : Nat) (calls : List Call)
    (h : Follows AudioInTurn (start .audio plan capacity) calls) :
    let s := (start .audio plan capacity).run calls
    (∃ groups kept, groups.flatten <+: Moment.timeline s.history ∧ kept.Sublist groups ∧
      List.Forall₂ Slot.Carries s.placed kept) ∧
    s.placed.Pairwise fun a b => a.timestamp + a.duration ≤ b.timestamp := by
  intro s
  have hinv : s.OnTime := run_invariant onTime_apply calls _ h (onTime_start plan capacity)
  obtain ⟨a, v, hs, hd⟩ := hinv
  have hfiled : ∃ rest next groups kept, Filed (Moment.timeline s.history) s.placed rest next groups kept := by
    cases hdue : s.due <;> rw [hdue] at hd
    · obtain ⟨groups, kept, hl⟩ := hd.line
      exact ⟨_, _, groups, kept, hl⟩
    · obtain ⟨data, -, groups, kept, hl⟩ := hd.frame
      exact ⟨_, _, groups, kept, hl⟩
    · obtain ⟨data, -, groups, kept, hl⟩ := hd.1.frame
      exact ⟨_, _, groups, kept, hl⟩
  obtain ⟨rest, next, groups, kept, hl⟩ := hfiled
  exact ⟨⟨groups, kept, ⟨rest, hl.all⟩, hl.sublist, hl.carries⟩, hl.apart⟩

/-- Six frames of 400 ticks, with segments of a second.  The fifth frame comes 500 ticks late while the slot is held. -/
def heldGap : List Call :=
  [0, 400, 800, 1200, 2100, 2500].flatMap fun ms =>
    [.manage (.audio ⟨1000000000 + ms * 1000000, 1000, 2, 400, [7, UInt8.ofNat (ms / 100)]⟩), .configure, .append] ++
      if ms = 2100 then [.clear] else []

def millisecondPlan : SegmenterPlan := ⟨1, 1, 1000, 1, 0⟩

theorem placed_on_timeline_heldGap : Follows AudioInTurn (start .audio millisecondPlan 4096) heldGap ∧
    let s := (start .audio millisecondPlan 4096).run heldGap
    (∃ groups kept, groups.flatten <+: Moment.timeline s.history ∧ kept.Sublist groups ∧
      List.Forall₂ Slot.Carries s.placed kept) ∧
    s.placed.Pairwise fun a b => a.timestamp + a.duration ≤ b.timestamp := by
  have h : Follows AudioInTurn (start .audio millisecondPlan 4096) heldGap := by decide +kernel
  exact ⟨h, placed_on_timeline millisecondPlan 4096 heldGap h⟩

/-- The late frame starts at tick 2100; the sample before it was stretched to 900 ticks. -/
example : ((start .audio millisecondPlan 4096).run heldGap).placed.map (fun slot => (slot.timestamp, slot.duration)) =
    [(0, 1200), (1200, 1700)] := by decide +kernel

end Session
end Packager

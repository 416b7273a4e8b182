import Packager.Proofs.AudioTimeline
import Packager.Proofs.SampleFlow
/-!
# Proofs.Setback — how far audio segments can overlap

A clock that jumps back sets the time line of its track back, under segments that were cut or are still open.  A mark
says of each frame how far the line was set back until then.  Measured along the line, its setbacks not counted, every
frame lies where the one before ends, or later, and so do the segments: two of them overlap by at most what the line was
set back between their first frames (`overlap_at_most_set_back`).
-/
namespace Packager

/-! ## Marks -/

/-- A frame on the time line of its track. -/
structure Mark where
  /-- The tick at which the frame was expected. -/
  tick : Nat
  /-- How far the line was set back until then, all setbacks together. -/
  back : Nat
  data : Bytes
  deriving DecidableEq, Repr

namespace Mark

/-- Where a mark lies along the line. -/
def along (m : Mark) : Nat := m.tick + m.back

/-- The mark of a frame behind the others.  The line is set back when the frame is expected before the last one ends. -/
def next (line : List Mark) (clock : Clock) (data : Bytes) : Mark where
  tick := clock.expected
  back := match line.getLast? with
    | none => 0
    | some last => last.back + (last.tick + clock.frameTicks - clock.expected)
  data := data

/-- **Along the line no frame lies before the end of the last one.** -/
theorem along_next (before : List Mark) (last : Mark) (clock : Clock) (data : Bytes) :
    last.along + clock.frameTicks ≤ (next (before ++ [last]) clock data).along ∧
      last.back ≤ (next (before ++ [last]) clock data).back := by
  unfold next along
  rw [List.getLast?_concat]
  simp only
  omega

end Mark

/-- The line after one more moment. -/
def Moment.mark (line : List Mark) : Moment → List Mark
  | .taken frame clock => line ++ (frame.sample?.map fun sample => Mark.next line clock sample.1).toList
  | .configured | .finished => line

/-- The marks of a history, one for each frame that makes a sample. -/
def Moment.marks (history : List Moment) : List Mark := history.foldl mark []

theorem Moment.marks_taken (history : List Moment) {frame : Frame} {data : Bytes} {isSync : Bool} (clock : Clock)
    (h : frame.sample? = some (data, isSync)) :
    marks (history ++ [.taken frame clock]) = marks history ++ [Mark.next (marks history) clock data] := by
  unfold marks
  rw [List.foldl_append, List.foldl_cons, List.foldl_nil, mark, h]
  rfl

theorem Moment.marks_other (history : List Moment) {moments : List Moment}
    (h : moments = [] ∨ moments = [.configured] ∨ moments = [.finished]) :
    marks (history ++ moments) = marks history := by
  unfold marks
  rw [List.foldl_append]
  rcases h with rfl | rfl | rfl <;> rfl

/-! ## Segments along the line -/

/-- Whether a slot holds a media segment that opens with a frame, at the tick of the frame. -/
def Slot.OpensWith (slot : Slot) (m : Mark) : Prop :=
  ∃ f : Fragment, slot.Holds f ∧ f.datas.head? = some m.data ∧ slot.timestamp = m.tick

/-- Whether a fragment opens with a frame, at the tick of the frame. -/
structure OpenFragment.OpensWith (f : OpenFragment) (m : Mark) : Prop where
  start : f.start = m.tick
  data : f.datas.head? = some m.data

/-- The placed segments with the marks of their first frames.  Along the line they lie one after the other before
`reach`; their marks, and then those of `opened`, have the order of the line. -/
structure Spread (line : List Mark) (placed : List Slot) (opened : List Mark) (reach : Nat) (laid : List (Slot × Mark)) :
    Prop where
  slots : laid.map Prod.fst = placed
  marks : (laid.map Prod.snd ++ opened).Sublist line
  opens : ∀ x ∈ laid, x.1.OpensWith x.2
  apart : laid.Pairwise fun x y => x.1.timestamp + x.1.duration + x.2.back ≤ y.1.timestamp + y.2.back
  below : ∀ x ∈ laid, x.1.timestamp + x.1.duration + x.2.back ≤ reach

namespace Spread

variable {line opened : List Mark} {placed : List Slot} {reach : Nat} {laid : List (Slot × Mark)} {m : Mark}

theorem nothing (line : List Mark) (reach : Nat) : Spread line [] [] reach [] :=
  ⟨rfl, List.nil_sublist line, fun _ hx => absurd hx List.not_mem_nil, .nil, fun _ hx => absurd hx List.not_mem_nil⟩

theorem mono (h : Spread line placed opened reach laid) {further : Nat} (hr : reach ≤ further) :
    Spread line placed opened further laid :=
  ⟨h.slots, h.marks, h.opens, h.apart, fun x hx => Nat.le_trans (h.below x hx) hr⟩

/-- The open fragment is given up. -/
theorem drop (h : Spread line placed [m] reach laid) : Spread line placed [] reach laid := by
  refine ⟨h.slots, ?_, h.opens, h.apart, h.below⟩
  rw [List.append_nil]
  exact (List.sublist_append_left _ [m]).trans h.marks

/-- A frame comes to the line, and opens a fragment. -/
theorem extend (h : Spread line placed [] reach laid) (m : Mark) : Spread (line ++ [m]) placed [m] reach laid := by
  refine ⟨h.slots, ?_, h.opens, h.apart, h.below⟩
  have hmarks := h.marks
  rw [List.append_nil] at hmarks
  exact hmarks.append (List.Sublist.refl [m])

theorem longer (h : Spread line placed opened reach laid) (m : Mark) : Spread (line ++ [m]) placed opened reach laid :=
  ⟨h.slots, h.marks.trans (List.sublist_append_left line [m]), h.opens, h.apart, h.below⟩

/-- The open fragment is placed. -/
theorem put {slot : Slot} (h : Spread line placed [m] m.along laid) (ho : slot.OpensWith m)
    (hr : slot.timestamp + slot.duration + m.back ≤ reach) :
    Spread line (placed ++ [slot]) [] reach (laid ++ [(slot, m)]) := by
  have hstart : slot.timestamp + m.back = m.along := by
    obtain ⟨-, -, -, ht⟩ := ho
    rw [ht, Mark.along]
  refine ⟨?_, ?_, ?_, ?_, ?_⟩
  · rw [List.map_append, h.slots]
    rfl
  · rw [List.map_append, List.append_nil]
    exact h.marks
  · rintro x hx
    rcases List.mem_append.1 hx with hx | hx
    · exact h.opens x hx
    · rw [List.mem_singleton.1 hx]
      exact ho
  · refine List.pairwise_append.2 ⟨h.apart, List.pairwise_singleton _ _, fun x hx y hy => ?_⟩
    rw [List.mem_singleton.1 hy, hstart]
    exact h.below x hx
  · rintro x hx
    rcases List.mem_append.1 hx with hx | hx
    · have hx := h.below x hx
      omega
    · rw [List.mem_singleton.1 hx]
      exact hr

end Spread

/-! ## The open fragment -/

namespace OpenFragment

/-- A fragment that is stretched up to `next` ends there. -/
theorem stop_bridge? {f g : OpenFragment} {next : Nat} (h : f.bridge? next = some g) :
    g.start = f.start ∧ g.stop = next := by
  unfold bridge? at h
  split at h
  · cases h
  · simp only at h
    split at h <;> cases h
    rename_i hgap
    refine ⟨rfl, ?_⟩
    show f.start + (f.duration + (next - (f.start + f.duration))) = next
    omega

theorem opensWith_push {f : OpenFragment} {m : Mark} (h : f.OpensWith m) (start : Nat) (s : Sample) :
    (f.push start s).OpensWith m ∧ (f.push start s).stop = f.stop + s.duration.toNat := by
  have hn : f.isEmpty = false := by
    rw [isEmpty_eq_datas]
    cases hd : f.datas with
    | nil =>
      have hdata := h.data
      rw [hd] at hdata
      cases hdata
    | cons x rest => rfl
  refine ⟨⟨?_, ?_⟩, ?_⟩
  · rw [push, if_neg (by simpa using hn)]
    exact h.start
  · rw [datas_push, List.head?_append, h.data, Option.some_or]
  · rw [push, if_neg (by simpa using hn)]
    exact (Nat.add_assoc _ _ _).symm

/-- Whether the placed segments and the open fragment lie one after the other along the line before `reach`. -/
def Stands (f : OpenFragment) (line : List Mark) (placed : List Slot) (reach : Nat) : Prop :=
  (f.isEmpty = true ∧ ∃ laid, Spread line placed [] reach laid) ∨
  ∃ m laid, f.OpensWith m ∧ f.stop + m.back ≤ reach ∧ Spread line placed [m] m.along laid

namespace Stands

variable {f g : OpenFragment} {line : List Mark} {placed : List Slot} {reach : Nat}

theorem of_empty (hf : f.isEmpty = true) (line : List Mark) (reach : Nat) : f.Stands line [] reach :=
  .inl ⟨hf, [], .nothing line reach⟩

theorem along_le_stop {m : Mark} (h : f.OpensWith m) : m.along ≤ f.stop + m.back := by
  have hstart := h.start
  unfold Mark.along stop
  omega

theorem spread (h : f.Stands line placed reach) : ∃ laid, Spread line placed [] reach laid := by
  rcases h with ⟨-, hl⟩ | ⟨m, laid, hm, hr, hl⟩
  · exact hl
  · exact ⟨laid, hl.drop.mono (Nat.le_trans (along_le_stop hm) hr)⟩

theorem mono (h : f.Stands line placed reach) {further : Nat} (hr : reach ≤ further) : f.Stands line placed further := by
  rcases h with ⟨hf, laid, hl⟩ | ⟨m, laid, hm, hs, hl⟩
  · exact .inl ⟨hf, laid, hl.mono hr⟩
  · exact .inr ⟨m, laid, hm, Nat.le_trans hs hr, hl⟩

/-- What is open is given up. -/
theorem reset (h : f.Stands line placed reach) (hg : g.isEmpty = true) : g.Stands line placed reach :=
  .inl ⟨hg, h.spread⟩

/-- **Closing places the open fragment**, or loses it. -/
theorem close {a : Assembly} (slot : Slot) (h : a.fragment.Stands line placed reach) :
    (a.close slot).state.fragment.Stands line (placed ++ (a.close slot).made) reach := by
  rcases a.close_cases slot with ⟨-, hc⟩ | ⟨-, ⟨length, capacity, hr⟩, hst, -⟩ | ⟨hn, hr, hst, hh, -, ht, hd⟩
  · rw [hc, Outcome.made, List.append_nil]
    exact h
  · rw [hst, Outcome.made, hr, List.append_nil]
    exact h.reset rfl
  · rw [hst, Outcome.made, hr]
    rcases h with ⟨he, -⟩ | ⟨m, laid, hm, hs, hl⟩
    · rw [hn] at he
      cases he
    · refine .inl ⟨rfl, _, hl.put ⟨a.segment, hh, hm.data, ht.trans hm.start⟩ ?_⟩
      rw [ht, hd]
      exact hs

/-- **Stretching the last sample** up to a frame keeps the fragment before the frame. -/
theorem bridge {next : Nat} (h : f.Stands line placed reach) (hg : f.bridge? next = some g)
    (hr : ∀ m ∈ line, next + m.back ≤ reach) : g.Stands line placed reach := by
  obtain ⟨hstart, hstop⟩ := stop_bridge? hg
  rcases h with ⟨he, -⟩ | ⟨m, laid, hm, -, hl⟩
  · rw [bridge?, samples_of_isEmpty he] at hg
    cases hg
  · have hmem : m ∈ line := hl.marks.subset (List.mem_append_right _ List.mem_cons_self)
    refine .inr ⟨m, laid, ⟨hstart.trans hm.start, ?_⟩, ?_, hl⟩
    · rw [datas_bridge? hg]
      exact hm.data
    · rw [hstop]
      exact hr m hmem

/-- **Appending a frame** at its mark. -/
theorem push {m : Mark} (h : f.Stands line placed m.along) {s : Sample} (hs : s.data = m.data) :
    (f.push m.tick s).Stands (line ++ [m]) placed (m.along + s.duration.toNat) := by
  rcases h with ⟨he, laid, hl⟩ | ⟨first, laid, hf, hr, hl⟩
  · have hpush : f.push m.tick s = ⟨[s], m.tick, s.duration.toNat⟩ := if_pos he
    refine .inr ⟨m, laid, ?_, ?_, hl.extend m⟩
    · rw [hpush]
      exact ⟨rfl, congrArg some hs⟩
    · rw [hpush]
      unfold stop Mark.along
      simp only
      omega
  · obtain ⟨hopens, hstop⟩ := opensWith_push hf m.tick s
    refine .inr ⟨first, laid, hopens, ?_, hl.longer m⟩
    rw [hstop]
    omega

end Stands

end OpenFragment

/-! ## Between frames, and while one waits -/

namespace AudioStream

/-- **A jump is met before the frame is appended**: nothing moves past the frame. -/
theorem resynchronize_stands {a : Assembly} (v : AudioStream) {next : Nat} (slot : Slot) {line : List Mark}
    {placed : List Slot} {reach : Nat} (h : a.fragment.Stands line placed reach)
    (hr : ∀ m ∈ line, next + m.back ≤ reach) :
    (resynchronize a v next slot).state.1.fragment.Stands line (placed ++ (resynchronize a v next slot).made) reach := by
  rcases resynchronize_cases a v next slot with ⟨-, he⟩ | ⟨-, -, ⟨-, he⟩ | ⟨-, g, hg, he⟩ | ⟨-, -, he⟩⟩ <;> rw [he]
  · simpa [Outcome.made] using h
  · exact h.close slot
  · simpa [Outcome.made] using h.bridge hg hr
  · simpa [Outcome.made] using h

/-- The state between two frames.  The line ends with the mark of the last one, and all that was appended lies before its
end; before the first frame there is nothing. -/
inductive Rests (a : Assembly) : List Mark → List Slot → Prop where
  | fresh (offset : a.clock.offset.isSome = false) (pending : a.pending = none) (fragment : a.fragment.isEmpty = true) :
    Rests a [] []
  | behind {before : List Mark} {last : Mark} {placed : List Slot} (offset : a.clock.offset.isSome = true)
    (pending : a.pending = none) (pace : 0 < a.clock.frameTicks) (tick : last.tick = a.clock.expected)
    (back : ∀ m ∈ before, m.back ≤ last.back)
    (stands : a.fragment.Stands (before ++ [last]) placed (last.along + a.clock.frameTicks)) :
    Rests a (before ++ [last]) placed

/-- The state while a frame waits, whose mark is the last of the line. -/
inductive Expects (a : Assembly) : List Mark → List Slot → Prop where
  | frame {before : List Mark} {last : Mark} {placed : List Slot} (offset : a.clock.offset.isSome = true)
    (pending : a.pending = some ⟨last.tick, last.data, true⟩) (tick : last.tick = a.clock.expected)
    (back : ∀ m ∈ before, m.back ≤ last.back) (stands : a.fragment.Stands before placed last.along) :
    Expects a (before ++ [last]) placed

variable {a b : Assembly} {v w : AudioStream} {line : List Mark} {placed : List Slot}

theorem Rests.pending_eq (h : Rests a line placed) : a.pending = none := by
  cases h <;> assumption

theorem Rests.stands (h : Rests a line placed) : ∃ reach, a.fragment.Stands line placed reach := by
  cases h with
  | fresh _ _ hf => exact ⟨0, .of_empty hf [] 0⟩
  | behind _ _ _ _ _ hs => exact ⟨_, hs⟩

/-- **Taking a frame**: its mark is the next of the line. -/
theorem Rests.manage {f : AudioFrame} {isNew : Bool} (hb : Rests a line placed)
    (h : AudioStream.manage a v f = .ok (isNew, b, w)) : ∃ data, (Frame.audio f).sample? = some (data, true) ∧
      Expects b (line ++ [Mark.next line b.clock data]) placed := by
  obtain ⟨data, phase, hd, rfl, -⟩ := manage_ok h
  refine ⟨data, hd, ?_⟩
  cases hb with
  | fresh ho _ hf =>
    obtain ⟨hoffset, -, -⟩ := a.clock.accept_cases f.pts (fun h => by rw [ho] at h; cases h)
    exact .frame hoffset rfl rfl (fun _ hm => absurd hm List.not_mem_nil) (.of_empty hf [] _)
  | @behind before last _ ho _ hpace _ hback hs =>
    obtain ⟨hoffset, hticks, -⟩ := a.clock.accept_cases f.pts (fun _ => hpace)
    -- whether the clock keeps its pace or jumps, the frame lies behind the last one along the line
    obtain ⟨halong, hlast⟩ := Mark.along_next before last (a.clock.accept f.pts).1 data
    rw [hticks] at halong
    refine .frame hoffset rfl rfl (fun m hm => ?_) (hs.mono halong)
    rcases List.mem_append.1 hm with hm | hm
    · exact Nat.le_trans (hback m hm) hlast
    · rw [List.mem_singleton.1 hm]
      exact hlast

/-- **A cut between two frames** leaves the state between two frames. -/
theorem Rests.close (slot : Slot) (h : Rests a line placed) :
    Rests (a.close slot).state line (placed ++ (a.close slot).made) := by
  obtain ⟨g, n, phase, hst, hg⟩ := a.close_state slot
  cases h with
  | fresh ho hp hf =>
    have hmade : (a.close slot).made = [] := by
      unfold Assembly.close
      rw [hf]
      rfl
    rw [hmade, hst]
    exact .fresh ho hp hg
  | behind ho hp hpace ht hback hs =>
    have hclose := hs.close slot
    rw [hst] at hclose ⊢
    exact .behind ho hp hpace ht hback hclose

/-- The names of a track, its origin and its phase do not matter. -/
theorem Rests.relabel (h : Rests a line placed) (zero : Option Nanos) (metadata : Bytes) (bitrate : Nat)
    (described : Bool) (phase : Phase) :
    Rests { a with clock := { a.clock with origin := zero }, metadata, bitrate, described, phase } line placed := by
  cases h with
  | fresh ho hp hf => exact .fresh ho hp hf
  | behind ho hp hpace ht hback hs => exact .behind ho hp hpace ht hback hs

theorem Expects.relabel (h : Expects a line placed) (zero : Option Nanos) (metadata : Bytes) (bitrate : Nat)
    (described : Bool) (phase : Phase) :
    Expects { a with clock := { a.clock with origin := zero }, metadata, bitrate, described, phase } line placed := by
  obtain ⟨ho, hp, ht, hback, hs⟩ := h
  exact .frame ho hp ht hback hs

theorem Expects.configure (h : Expects a line placed) (ticks : Nat) (phase : Phase) :
    Expects { a with clock := { a.clock with frameTicks := ticks }, configured := true, phase } line placed := by
  obtain ⟨ho, hp, ht, hback, hs⟩ := h
  exact .frame ho hp ht hback hs

/-- **What was open is dropped** between two frames. -/
theorem Rests.flush (h : Rests a line placed) : Rests a.flush line placed := by
  cases h with
  | fresh ho _ _ => exact .fresh ho rfl rfl
  | behind ho _ hpace ht hback hs => exact .behind ho rfl hpace ht hback (hs.reset rfl)

/-- **Appending the waiting frame** leads back to the state between two frames, whatever was cut on the way. -/
theorem Expects.append (slot : Slot) (h : Expects a line placed) (hpace : 0 < a.clock.frameTicks) :
    Rests (AudioStream.append a v slot).state.1 line (placed ++ (AudioStream.append a v slot).made) := by
  cases h with
  | @frame before last _ ho hp ht hback hs =>
    have hreach : ∀ m ∈ before, last.tick + m.back ≤ last.along := fun m hm => Nat.add_le_add_left (hback m hm) _
    have hcut := resynchronize_stands (a := { a with pending := none }) v slot hs hreach
    have hmoved := resynchronize_moved { a with pending := none } v last.tick slot
    unfold AudioStream.append
    rw [hp]
    simp only
    generalize resynchronize { a with pending := none } v last.tick slot = cut at hcut hmoved
    obtain ⟨g, n, phase, hst⟩ := hmoved
    rw [hst] at hcut ⊢
    generalize hb : ({ a with pending := none, fragment := g, nextSequence := n, phase := phase } : Assembly) = b at hcut ⊢
    have hticks : b.sampleTicks.toNat ≤ a.clock.frameTicks := by
      subst hb
      refine Nat.le_trans (Nat.mod_le _ _) (Nat.min_le_left _ _)
    have hpush : Rests (b.push ⟨last.tick, last.data, true⟩) (before ++ [last]) (placed ++ cut.made) := by
      have hstands := (hcut.push (s := ⟨b.sampleTicks, true, last.data⟩) rfl).mono (Nat.add_le_add_left hticks last.along)
      subst hb
      exact .behind ho rfl hpace ht hback hstands
    split
    · rename_i hf
      have hmade : cut.made = [] := by rw [Outcome.made, hf]
      rw [hmade, List.append_nil] at hpush
      split
      · exact hpush.close cut.slot
      · exact (List.append_nil placed).symm ▸ hpush
    · exact hpush

end AudioStream

/-! ## Runs -/

/-- The time stamp of the frame in a call. -/
def Call.pts? : Call → Option Nanos
  | .manage frame => some frame.pts
  | _ => none

namespace Session

/-- The state between two frames and the state while one waits, on the line of marks. -/
def marked : AudioInvariant fun _ _ => True where
  between history placed a _ := AudioStream.Rests a (Moment.marks history) placed
  waiting history placed a _ := AudioStream.Expects a (Moment.marks history) placed
  pending hb := hb.pending_eq
  manage hb _ h := by
    obtain ⟨data, hdata, hw⟩ := hb.manage h
    rw [Moment.marks_taken _ _ hdata]
    exact hw
  configure ticks phase hw := hw.configure ticks phase
  append slot hw hpos _ := hw.append slot hpos
  close slot hb := hb.close slot
  rephase phase hb := hb.relabel _ _ _ _ phase
  relabel zero metadata bitrate described hb := hb.relabel zero metadata bitrate described _
  relabelWaiting zero metadata bitrate described hw := hw.relabel zero metadata bitrate described _
  finished hb := by
    rw [Moment.marks_other _ (.inr (.inr rfl))]
    exact hb
  configured hw := by
    rw [Moment.marks_other _ (.inr (.inl rfl))]
    exact hw

theorem marked_start (plan : SegmenterPlan) (capacity : Nat) : (start .audio plan capacity).Obeys marked :=
  ⟨.start plan, .start, rfl, .fresh rfl rfl rfl⟩

theorem marked_flush {s : Session} (h : s.Obeys marked) (hdue : s.due = .manage) : (s.apply .flush).Obeys marked := by
  obtain ⟨a, v, hs, hd⟩ := h
  rw [hdue] at hd
  refine ⟨a.flush, { v with resync := false }, by rw [apply, hs]; rfl, ?_⟩
  have hdue' : (s.apply .flush).due = .manage := hdue
  rw [hdue']
  exact AudioStream.Rests.flush hd

theorem marked_apply (s : Session) (call : Call) (h : s.Obeys marked) (hr : s.AudioInOrder call) :
    (s.apply call).Obeys marked := by
  by_cases hflush : call = .flush
  · subst hflush
    exact marked_flush h hr
  · exact obeys_apply h hr hflush fun _ _ _ => trivial

theorem spread_of_marked {s : Session} (h : s.Obeys marked) :
    ∃ reach laid, Spread (Moment.marks s.history) s.placed [] reach laid := by
  obtain ⟨a, v, -, hd⟩ := h
  have waiting : ∀ {line placed}, AudioStream.Expects a line placed → ∃ reach laid, Spread line placed [] reach laid := by
    rintro line placed ⟨-, -, -, -, hs⟩
    obtain ⟨laid, hl⟩ := hs.spread
    exact ⟨_, laid, hl.longer _⟩
  cases hdue : s.due <;> rw [hdue] at hd
  · obtain ⟨reach, hs⟩ := hd.stands
    exact ⟨reach, hs.spread⟩
  · exact waiting hd
  · exact waiting hd.1

/-- **Two segments of an audio track overlap by at most what the time line was set back between their first frames**,
however the frames arrive and whenever the slot is cleared.  Each placed segment opens with a frame of the line, in the
order of the line, at the tick where the frame was expected.  When the line is never set back, no segment starts before
the end of an earlier one. -/
theorem overlap_at_most_set_back (plan : SegmenterPlan) (capacity : Nat) (calls : List Call)
    (h : Follows AudioInOrder (start .audio plan capacity) calls) :
    let s := (start .audio plan capacity).run calls
    ∃ laid : List (Slot × Mark), laid.map Prod.fst = s.placed ∧
      (laid.map Prod.snd).Sublist (Moment.marks s.history) ∧ (∀ x ∈ laid, x.1.OpensWith x.2) ∧
      (laid.Pairwise fun x y => x.1.timestamp + x.1.duration + x.2.back ≤ y.1.timestamp + y.2.back) ∧
      ((∀ m ∈ Moment.marks s.history, m.back = 0) →
        s.placed.Pairwise fun a b => a.timestamp + a.duration ≤ b.timestamp) := by
  intro s
  have hinv : s.Obeys marked := run_invariant marked_apply calls _ h (marked_start plan capacity)
  obtain ⟨reach, laid, hl⟩ := spread_of_marked hinv
  have hmarks := hl.marks
  rw [List.append_nil] at hmarks
  refine ⟨laid, hl.slots, hmarks, hl.opens, hl.apart, fun hnever => ?_⟩
  have hzero : ∀ x ∈ laid, x.2.back = 0 := fun x hx => hnever _ (hmarks.subset (List.mem_map_of_mem hx))
  rw [← hl.slots, List.pairwise_map]
  refine hl.apart.imp_of_mem fun hx hy hxy => ?_
  rwa [hzero _ hx, hzero _ hy] at hxy

/-- Three frames of 400 ticks that arrive 100 ticks apart.  The third lies 600 ticks before the end of the second. -/
def earlyFrames : List Call :=
  ([0, 100, 200].flatMap fun ms =>
    [.manage (.audio ⟨1000000000 + ms * 1000000, 1000, 2, 400, [7, UInt8.ofNat (ms / 100)]⟩), .configure, .append]) ++
      [.clear, .finish]

theorem overlap_at_most_set_back_early : Follows AudioInOrder (start .audio millisecondPlan 4096) earlyFrames ∧
    let s := (start .audio millisecondPlan 4096).run earlyFrames
    ∃ laid : List (Slot × Mark), laid.map Prod.fst = s.placed ∧
      (laid.map Prod.snd).Sublist (Moment.marks s.history) ∧ (∀ x ∈ laid, x.1.OpensWith x.2) ∧
      (laid.Pairwise fun x y => x.1.timestamp + x.1.duration + x.2.back ≤ y.1.timestamp + y.2.back) ∧
      ((∀ m ∈ Moment.marks s.history, m.back = 0) →
        s.placed.Pairwise fun a b => a.timestamp + a.duration ≤ b.timestamp) := by
  have h : Follows AudioInOrder (start .audio millisecondPlan 4096) earlyFrames := by decide +kernel
  exact ⟨h, overlap_at_most_set_back millisecondPlan 4096 earlyFrames h⟩

/-- The second segment starts 600 ticks before the end of the first, though no frame is older than the one before. -/
theorem early_frames_overlap : Follows AudioInOrder (start .audio millisecondPlan 4096) earlyFrames ∧
    (earlyFrames.filterMap Call.pts?).Pairwise (· < ·) ∧
    ¬((start .audio millisecondPlan 4096).run earlyFrames).placed.Pairwise fun a b =>
      a.timestamp + a.duration ≤ b.timestamp := by
  refine ⟨?_, ?_, ?_⟩
  · decide +kernel
  · decide +kernel
  · decide +kernel

end Session

end Packager

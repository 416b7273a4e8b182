import Packager.Proofs.AudioTimeline
import Packager.Proofs.FixedParts
/-!
# Proofs.FullSegments — an audio track without jumps is cut as soon as a segment is full

As long as the clock stays in pace and the slot is free, every frame is appended with its own duration, and the one that
brings the open fragment to the target completes it.  So the durations of the frames fall into groups that reach the
target with their last member, and a rest that does not (`Grouped`).  The slots hold the groups one after the other from
the first frame on, and `finish` emits the rest (`cut_when_full`).
-/
namespace Packager

/-! ## Durations in groups -/

/-- Durations in groups, each closed as soon as it reached the target, and the rest that does not reach it. -/
structure Grouped (target : Nat) (durations : List Nat) (groups : List (List Nat)) (rest : List Nat) : Prop where
  all : groups.flatten ++ rest = durations
  full : ∀ g ∈ groups, target ≤ g.sum ∧ g.dropLast.sum < target
  short : rest.sum < target

/-- One answer for each duration: whether it is the last of its group. -/
def closes (groups : List (List Nat)) (rest : List Nat) : List Bool :=
  groups.flatMap (fun g => List.replicate (g.length - 1) false ++ [true]) ++ List.replicate rest.length false

namespace Grouped

variable {target d : Nat} {durations : List Nat} {groups : List (List Nat)} {rest : List Nat}

theorem wait (h : Grouped target durations groups rest) (hd : rest.sum + d < target) :
    Grouped target (durations ++ [d]) groups (rest ++ [d]) := by
  refine ⟨by rw [← h.all, List.append_assoc], h.full, ?_⟩
  rwa [List.sum_append, List.sum_singleton]

theorem cut (h : Grouped target durations groups rest) (hd : target ≤ rest.sum + d) :
    Grouped target (durations ++ [d]) (groups ++ [rest ++ [d]]) [] := by
  refine ⟨?_, fun g hg => ?_, Nat.zero_lt_of_lt h.short⟩
  · rw [← h.all, List.flatten_append, List.flatten_singleton, List.append_nil, List.append_assoc]
  · rcases List.mem_append.1 hg with hg | hg
    · exact h.full g hg
    · rw [List.mem_singleton.1 hg, List.sum_append, List.sum_singleton, List.dropLast_concat]
      exact ⟨hd, h.short⟩

theorem closes_wait (groups : List (List Nat)) (rest : List Nat) (d : Nat) :
    closes groups (rest ++ [d]) = closes groups rest ++ [false] := by
  unfold closes
  rw [List.length_append, List.length_singleton, List.replicate_succ', List.append_assoc]

theorem closes_cut (groups : List (List Nat)) (rest : List Nat) (d : Nat) :
    closes (groups ++ [rest ++ [d]]) [] = closes groups rest ++ [true] := by
  unfold closes
  rw [List.flatMap_append, List.flatMap_singleton, List.length_append, List.length_singleton, Nat.add_sub_cancel,
    List.length_nil, List.replicate_zero, List.append_nil, List.append_assoc]

end Grouped

/-! ## Groups in slots -/

namespace Slot

/-- Whether a slot holds one sample for each of some durations, under their sum. -/
def Lasts (slot : Slot) (durations : List Nat) : Prop :=
  slot.duration = durations.sum ∧ ∃ f : Fragment, slot.Holds f ∧ f.samples.map (·.duration.toNat) = durations

/-- Whether slots lie one after the other, the first at tick `first`. -/
def Abut : Nat → List Slot → Prop
  | _, [] => True
  | first, slot :: slots => slot.timestamp = first ∧ Abut (first + slot.duration) slots

/-- Where slots that lie one after the other end. -/
def ending (first : Nat) (slots : List Slot) : Nat := first + (slots.map duration).sum

theorem ending_concat (first : Nat) (slots : List Slot) (slot : Slot) :
    ending first (slots ++ [slot]) = ending first slots + slot.duration := by
  simp [ending, Nat.add_assoc]

theorem abut_concat {slot : Slot} : ∀ {first : Nat} {slots : List Slot}, Abut first slots →
    slot.timestamp = ending first slots → Abut first (slots ++ [slot])
  | _, [], _, h => ⟨h, trivial⟩
  | first, s :: slots, ha, h => ⟨ha.1, abut_concat ha.2 (h.trans (by simp [ending, Nat.add_assoc]))⟩

end Slot

/-- The groups of a track are in its slots and the rest in its open fragment, one after the other from tick `first` up to
tick `next`. -/
structure Stored (groups : List (List Nat)) (rest : List Nat) (first : Nat) (placed : List Slot) (f : OpenFragment)
    (next : Nat) : Prop where
  lasts : List.Forall₂ Slot.Lasts placed groups
  abut : Slot.Abut first placed
  samples : f.samples.map (·.duration.toNat) = rest
  tallied : f.Tallied
  stop : f.isEmpty = false → f.stop = next
  opening : f.opening next = Slot.ending first placed

namespace Stored

variable {groups : List (List Nat)} {rest : List Nat} {first next : Nat} {placed : List Slot} {f : OpenFragment}

theorem nothing (next : Nat) {f : OpenFragment} (h : f.isEmpty = true) : Stored [] [] next [] f next :=
  ⟨.nil, trivial, by rw [OpenFragment.samples_of_isEmpty h]; rfl, OpenFragment.tallied_of_isEmpty h,
    fun hn => by simp [h] at hn, OpenFragment.opening_of_isEmpty h next⟩

theorem isEmpty_iff (h : Stored groups rest first placed f next) : f.isEmpty = true ↔ rest = [] := by
  rw [← h.samples, List.map_eq_nil_iff, OpenFragment.isEmpty, List.isEmpty_iff]

theorem duration (h : Stored groups rest first placed f next) (hn : f.isEmpty = false) : f.duration = rest.sum := by
  rw [h.tallied hn, ← h.samples]
  rfl

theorem push (h : Stored groups rest first placed f next) (sample : Sample) :
    Stored groups (rest ++ [sample.duration.toNat]) first placed (f.push next sample) (next + sample.duration.toNat) := by
  refine ⟨h.lasts, h.abut, ?_, OpenFragment.tallied_push sample h.tallied,
    fun _ => OpenFragment.stop_push sample h.stop, ?_⟩
  · rw [OpenFragment.samples_push, List.map_append, h.samples]
    rfl
  · rw [OpenFragment.opening_push]
    exact h.opening

/-- **Closing puts the rest into a slot of its own**, unless that is too small for it. -/
theorem close {a : Assembly} (h : Stored groups rest first placed a.fragment next) (slot : Slot) (hrest : rest ≠ [])
    (hfit : ¬(a.close slot).Overflows) : (a.close slot).result = .ok true ∧
      Stored (groups ++ [rest]) [] first (placed ++ [(a.close slot).slot]) (a.close slot).state.fragment next := by
  have hn : a.fragment.isEmpty = false := by
    rw [← Bool.not_eq_true, h.isEmpty_iff]
    exact hrest
  rcases a.close_cases slot with ⟨he, -⟩ | ⟨-, hover, -⟩ | ⟨-, hresult, hstate, hholds, -, hstart, hduration⟩
  · rw [hn] at he
    cases he
  · exact absurd hover hfit
  · have hspan : (a.close slot).slot.duration = rest.sum := hduration.trans (h.duration hn)
    have hopen := h.opening
    rw [OpenFragment.opening_of_nonempty hn] at hopen
    have hempty : (a.close slot).state.fragment.isEmpty = true := by rw [hstate]; rfl
    refine ⟨hresult, List.rel_append h.lasts (.cons ⟨hspan, a.segment, hholds, h.samples⟩ .nil),
      Slot.abut_concat h.abut (hstart.trans hopen), ?_, OpenFragment.tallied_of_isEmpty hempty, ?_, ?_⟩
    · rw [hstate]
      rfl
    · intro hf
      rw [hempty] at hf
      cases hf
    · rw [OpenFragment.opening_of_isEmpty hempty, Slot.ending_concat, ← hopen, hduration]
      exact (h.stop hn).symm

end Stored

/-! ## Appending a frame -/

/-- Where the first frame of a history arrived. -/
def Moment.firstTick (history : List Moment) : Option Nat :=
  history.findSome? fun
    | .taken frame clock => some (clock.ticksAt frame.pts)
    | _ => none

theorem Moment.firstTick_append {history : List Moment} {first : Nat} (h : firstTick history = some first)
    (more : List Moment) : firstTick (history ++ more) = some first := by
  unfold firstTick at h ⊢
  rw [List.findSome?_append, h]
  rfl

/-- The durations of the frames of an audio track, each with the answer when it was appended, as groups in slots and a rest
that is open.  A slot that is still held leaves no rest. -/
structure Filling (target : Nat) (log : List (Nat × Except Failure Bool)) (placed : List Slot) (slot : Slot)
    (f : OpenFragment) (first next : Nat) (groups : List (List Nat)) (rest : List Nat) : Prop where
  grouped : Grouped target (log.map Prod.fst) groups rest
  answers : log.map Prod.snd = (closes groups rest).map .ok
  stored : Stored groups rest first placed f next
  held : slot.isEmpty = false → rest = []

namespace Filling

variable {target : Nat} {log : List (Nat × Except Failure Bool)} {placed : List Slot} {slot : Slot} {f : OpenFragment}
  {first next : Nat} {groups : List (List Nat)} {rest : List Nat}

theorem nothing (hpos : 0 < target) (next : Nat) (slot : Slot) {f : OpenFragment} (h : f.isEmpty = true) :
    Filling target [] [] slot f next next [] [] :=
  ⟨⟨rfl, fun _ hg => absurd hg List.not_mem_nil, hpos⟩, rfl, .nothing next h, fun _ => rfl⟩

theorem free (h : Filling target log placed slot f first next groups rest) {other : Slot} (ho : other.isEmpty = true) :
    Filling target log placed other f first next groups rest :=
  ⟨h.grouped, h.answers, h.stored, fun hn => by rw [ho] at hn; cases hn⟩

/-- **A frame in pace is appended**, and completes the fragment exactly when it brings it to the target. -/
theorem append {a : Assembly} {v : AudioStream} {p : Pending} (hp : a.pending = some p) (hr : v.resync = false)
    (h : Filling target log placed slot a.fragment first p.start groups rest) (ht : a.target = target)
    (hs : slot.isEmpty = true) (hticks : a.clock.frameTicks ≤ OpenFragment.longest)
    (hfit : ¬(AudioStream.append a v slot).Overflows) :
    let out := AudioStream.append a v slot
    out.state.2.resync = false ∧ ∃ groups' rest',
      Filling target (log ++ [(a.clock.frameTicks, out.result)]) (placed ++ out.made) out.slot out.state.1.fragment first
        (p.start + a.clock.frameTicks) groups' rest' := by
  intro out
  have ho : out = AudioStream.append a v slot := rfl
  rw [AudioStream.append_in_pace hp hr] at ho hfit
  have hpushed := h.stored.push ⟨a.sampleTicks, p.isSync, p.data⟩
  rw [Assembly.toNat_sampleTicks hticks] at hpushed
  generalize hb : Assembly.push { a with pending := none } p = b at ho hfit
  have hfragment : b.fragment = a.fragment.push p.start ⟨a.sampleTicks, p.isSync, p.data⟩ := by rw [← hb]; rfl
  have htarget : b.target = target := by rw [← hb]; exact ht
  rw [← hfragment] at hpushed
  have hn : b.fragment.isEmpty = false := by rw [hfragment, OpenFragment.isEmpty_push]
  have hfull : b.isFull = true ↔ target ≤ rest.sum + a.clock.frameTicks := by
    have hsum := hpushed.duration hn
    rw [List.sum_append, List.sum_singleton] at hsum
    rw [Assembly.isFull_iff, htarget, hsum]
    exact and_iff_right hn
  by_cases hcut : b.isFull = true
  · simp only [hcut, hs, Bool.and_self, if_true] at ho hfit
    obtain ⟨hresult, hstored⟩ := hpushed.close slot (List.append_ne_nil_of_right_ne_nil _ (List.cons_ne_nil _ _)) hfit
    rw [ho]
    refine ⟨hr, groups ++ [rest ++ [a.clock.frameTicks]], [], ?_, ?_, ?_, fun _ => rfl⟩
    · rw [List.map_append]
      exact h.grouped.cut (hfull.1 hcut)
    · rw [List.map_append, h.answers, Grouped.closes_cut, List.map_append]
      exact congrArg (_ ++ [·]) hresult
    · rw [Outcome.made]
      dsimp only
      rw [hresult]
      exact hstored
  · have hshort : rest.sum + a.clock.frameTicks < target := Nat.lt_of_not_le (hfull.not.1 hcut)
    simp only [hcut, Bool.false_and, Bool.false_eq_true, if_false] at ho
    rw [ho]
    refine ⟨hr, groups, rest ++ [a.clock.frameTicks], ?_, ?_, ?_, fun hheld => ?_⟩
    · rw [List.map_append]
      exact h.grouped.wait hshort
    · rw [List.map_append, h.answers, Grouped.closes_wait, List.map_append]
      rfl
    · rw [Outcome.made, List.append_nil]
      exact hpushed
    · dsimp only at hheld
      rw [hs] at hheld
      cases hheld

end Filling

/-! ## Runs -/

/-- Without anything open, `finish` fills no slot. -/
theorem Segmenter.finish_of_isEmpty (s : Segmenter) (slot : Slot) (h : s.absorb.assembly.fragment.isEmpty = true) :
    (s.finish slot).result ≠ .ok true ∧ (s.finish slot).made = [] := by
  have hnone : (s.finish slot).result ≠ .ok true := by
    rcases s.finish_cases slot with ⟨-, he⟩ | ⟨-, hresult, -⟩
    · rw [he]
      intro hfull
      cases hfull
    · rw [hresult]
      rcases s.absorb.assembly.close_cases slot with ⟨-, hc⟩ | ⟨hn, -⟩ | ⟨hn, -⟩
      · rw [hc]
        intro hfull
        cases hfull
      · rw [h] at hn
        cases hn
      · rw [h] at hn
        cases hn
  refine ⟨hnone, ?_⟩
  unfold Outcome.made
  split
  · exact absurd ‹_› hnone
  · rfl

/-- The first frame is expected where it arrives. -/
theorem Clock.accept_first {c : Clock} (h : c.offset = none) (pts : Nanos) :
    (c.accept pts).1.offset.isSome = true ∧ (c.accept pts).1.expected = (c.accept pts).1.ticksAt pts := by
  unfold accept
  rw [h]
  exact ⟨rfl, rfl⟩

namespace Session

/-- What one call adds to the log of a run: for an `append`, the frame duration in force and the answer. -/
def appended (s : Session) : Call → List (Nat × Except Failure Bool)
  | .append => [(s.assembly.clock.frameTicks, (s.segmenter.append s.slot).result)]
  | _ => []

/-- The frame duration and the answer of every `append` of a run. -/
def appends : Session → List Call → List (Nat × Except Failure Bool)
  | _, [] => []
  | s, call :: calls => s.appended call ++ (s.apply call).appends calls

/-- What the caller of an audio session promises: one frame after the other, each in pace, configured and appended to a
fragment that the free slot can hold. -/
def AudioInPace (s : Session) : Call → Prop
  | .manage frame =>
    s.due = .manage ∧
    match frame with
    | .audio f => (Frame.audio f).sample?.isSome = true → (s.assembly.clock.accept f.pts).2.drifted = false
    | .video _ => True
  | .configure => s.AudioInOrder .configure
  | .append => s.due = .append ∧ s.slot.isEmpty = true ∧ ¬(s.segmenter.append s.slot).Overflows
  | .finish | .flush => False
  | .describe _ | .setOrigin _ | .setBitrate _ | .clear => True

instance (s : Session) : ∀ call, Decidable (s.AudioInPace call)
  | .manage (.audio _) => inferInstanceAs (Decidable (_ ∧ (_ → _)))
  | .manage (.video _) => inferInstanceAs (Decidable (_ ∧ True))
  | .configure => inferInstanceAs (Decidable (s.AudioInOrder .configure))
  | .append => inferInstanceAs (Decidable (_ ∧ _ ∧ ¬_))
  | .finish | .flush => inferInstanceAs (Decidable False)
  | .describe _ | .setOrigin _ | .setBitrate _ | .clear => inferInstanceAs (Decidable True)

/-- Where the next frame is due, and the one that waits for it. -/
def Expects (due : Due) (a : Assembly) (next : Nat) : Prop :=
  match due with
  | .manage => a.pending = none ∧ 0 < a.clock.frameTicks ∧ next = a.clock.expected + a.clock.frameTicks
  | .configure => ∃ p, a.pending = some p ∧ p.start = next ∧ a.clock.expected = next
  | .append => (∃ p, a.pending = some p ∧ p.start = next ∧ a.clock.expected = next) ∧ a.configured = true ∧
      0 < a.clock.frameTicks ∧ a.clock.frameTicks ≤ OpenFragment.longest

/-- The state of an audio session that is cut into groups, before its first frame and after it. -/
def InGroups (target : Nat) (log : List (Nat × Except Failure Bool)) (s : Session) : Prop :=
  ∃ a v, s.segmenter = ⟨a, .audio v⟩ ∧ v.resync = false ∧ a.target = target ∧
    ((s.due = .manage ∧ s.history = [] ∧ s.placed = [] ∧ log = [] ∧ a.clock.offset = none ∧ a.pending = none ∧
        a.fragment.isEmpty = true) ∨
     ∃ first next groups rest, a.clock.offset.isSome = true ∧ Moment.firstTick s.history = some first ∧
        Expects s.due a next ∧ Filling target log s.placed s.slot a.fragment first next groups rest)

section
variable {target : Nat} {log : List (Nat × Except Failure Bool)} {s : Session}

theorem inGroups_start (plan : SegmenterPlan) (capacity : Nat) :
    InGroups plan.target [] (start .audio plan capacity) :=
  ⟨.start plan, .start, rfl, rfl, rfl, .inl ⟨rfl, rfl, rfl, rfl, rfl, rfl, rfl⟩⟩

theorem inGroups_relabelled {g : Segmenter} (h : InGroups target log s) (hg : s.segmenter.Relabelled g) :
    InGroups target log { s with segmenter := g } := by
  obtain ⟨a, v, hs, hr, ht, hstate⟩ := h
  obtain ⟨zero, metadata, bitrate, described, rfl⟩ := hg
  rw [hs]
  refine ⟨_, v, rfl, hr, ht, ?_⟩
  rcases hstate with hfresh | ⟨first, next, groups, rest, ho, hfirst, hexpects, hfilling⟩
  · exact .inl hfresh
  · refine .inr ⟨first, next, groups, rest, ho, hfirst, ?_, hfilling⟩
    unfold Expects at hexpects ⊢
    exact hexpects

theorem inGroups_manage {frame : Frame} (hpos : 0 < target) (h : InGroups target log s)
    (hr : s.AudioInPace (.manage frame)) :
    InGroups target log (s.apply (.manage frame)) := by
  have whole := h
  obtain ⟨a, v, hs, hquiet, ht, hstate⟩ := h
  obtain ⟨hdue, hpace⟩ := hr
  cases hm : s.segmenter.manage frame with
  | error e =>
    rw [apply_manage_error hm]
    exact whole
  | ok r =>
    obtain ⟨isNew, g⟩ := r
    rw [hs] at hm
    obtain ⟨a', v', f, b, w, heq, rfl, hma, rfl⟩ | ⟨a', v', f, b, w, heq, -⟩ := Segmenter.manage_cases hm
    · cases heq
      rw [← hs] at hm
      obtain ⟨data, phase, hdata, rfl, hw⟩ := AudioStream.manage_ok hma
      have hsample : (Frame.audio f).sample?.isSome = true := by rw [hdata]; rfl
      have hnone : (a.clock.accept f.pts).2.drifted = false := by
        have hpace := hpace hsample
        rwa [assembly, hs] at hpace
      rw [apply_manage_ok hm, if_pos hsample]
      have hwquiet : w.resync = false := by rw [hw, hquiet, hnone]; rfl
      refine ⟨_, w, rfl, hwquiet, ht, .inr ?_⟩
      rcases hstate with ⟨-, hhistory, hplaced, rfl, hoff, -, hempty⟩ |
          ⟨first, next, groups, rest, hoff, hfirst, hexpects, hfilling⟩
      · obtain ⟨hon, harrived⟩ := Clock.accept_first hoff f.pts
        refine ⟨(a.clock.accept f.pts).1.expected, _, [], [], hon, ?_, ⟨_, rfl, rfl, rfl⟩, ?_⟩
        · rw [hhistory, harrived]
          rfl
        · dsimp only
          rw [hplaced]
          exact .nothing hpos _ _ hempty
      · rw [hdue] at hexpects
        obtain ⟨-, hticks, rfl⟩ := hexpects
        obtain ⟨hon, -, ⟨hno, -⟩ | ⟨-, -, hexpected⟩ | ⟨-, hdrift, -⟩⟩ := a.clock.accept_cases f.pts fun _ => hticks
        · rw [hno] at hoff
          cases hoff
        · exact ⟨first, _, groups, rest, hon, Moment.firstTick_append hfirst _, ⟨_, rfl, hexpected, hexpected⟩, hfilling⟩
        · rw [hnone] at hdrift
          cases hdrift
    · cases heq

theorem inGroups_configure (h : InGroups target log s) (hr : s.AudioInPace .configure) :
    InGroups target log (s.apply .configure) := by
  obtain ⟨a, v, hs, hquiet, ht, hstate⟩ := h
  obtain ⟨hdue, hok⟩ := hr
  have he := Segmenter.configure_audio a v
  rw [← hs] at he
  cases hc : AudioStream.configure a v with
  | error lack =>
    rw [he, hc] at hok
    exact hok.elim
  | ok b =>
    rw [hc] at he
    rw [he] at hok
    rw [apply_configure_ok he]
    obtain ⟨ticks, hticks, rfl⟩ := AudioStream.configure_ok hc
    refine ⟨_, v, rfl, hquiet, ht, .inr ?_⟩
    rcases hstate with ⟨hmanage, -⟩ | ⟨first, next, groups, rest, hoff, hfirst, hexpects, hfilling⟩
    · rw [hdue] at hmanage
      cases hmanage
    · rw [hdue] at hexpects
      exact ⟨first, next, groups, rest, hoff, Moment.firstTick_append hfirst _,
        ⟨hexpects, rfl, hticks, Nat.le_sub_one_of_lt hok⟩, hfilling⟩

theorem inGroups_append (h : InGroups target log s) (hr : s.AudioInPace .append) :
    InGroups target (log ++ s.appended .append) (s.apply .append) := by
  obtain ⟨a, v, hs, hquiet, ht, hstate⟩ := h
  obtain ⟨hdue, hfree, hfit⟩ := hr
  rcases hstate with ⟨hmanage, -⟩ | ⟨first, next, groups, rest, hoff, hfirst, hexpects, hfilling⟩
  · rw [hdue] at hmanage
    cases hmanage
  · rw [hdue] at hexpects
    obtain ⟨⟨p, hp, rfl, hexpected⟩, hc, hticks, hlongest⟩ := hexpects
    have he := Segmenter.append_audio v s.slot hc
    rw [← hs] at he
    rw [he] at hfit
    obtain ⟨hquiet', groups', rest', hfilling'⟩ := hfilling.append hp hquiet ht hfree hlongest hfit
    obtain ⟨g, n, phase, hmoved⟩ := AudioStream.append_moved a v s.slot
    rw [apply, after, appended, he, assembly, hs]
    refine ⟨_, _, rfl, hquiet', ?_, .inr ⟨first, _, groups', rest', ?_, hfirst, ⟨?_, ?_, ?_⟩, hfilling'⟩⟩
    · rw [hmoved]
      exact ht
    · rw [hmoved]
      exact hoff
    · rw [hmoved]
    · rw [hmoved]
      exact hticks
    · rw [hmoved, hexpected]

/-- **What every call in pace keeps**: what was appended is in groups, which are in the slots but for the last. -/
theorem inGroups_apply (hpos : 0 < target) (h : InGroups target log s) (call : Call) (hr : s.AudioInPace call) :
    InGroups target (log ++ s.appended call) (s.apply call) := by
  have hsilent : s.appended call = [] → InGroups target log (s.apply call) →
      InGroups target (log ++ s.appended call) (s.apply call) := by
    intro hnone hkept
    rwa [hnone, List.append_nil]
  cases call with
  | manage frame => exact hsilent rfl (inGroups_manage hpos h hr)
  | configure => exact hsilent rfl (inGroups_configure h hr)
  | append => exact inGroups_append h hr
  | describe header => exact hsilent rfl (inGroups_relabelled h (s.segmenter.relabelled_describe header))
  | setOrigin origin => exact hsilent rfl (inGroups_relabelled h (s.segmenter.relabelled_setOrigin origin))
  | setBitrate bitrate => exact hsilent rfl (inGroups_relabelled h (s.segmenter.relabelled_setBitrate bitrate))
  | finish => exact hr.elim
  | flush => exact hr.elim
  | clear =>
    obtain ⟨a, v, hs, hquiet, ht, hstate⟩ := h
    refine hsilent rfl ⟨a, v, hs, hquiet, ht, ?_⟩
    rcases hstate with hfresh | ⟨first, next, groups, rest, hoff, hfirst, hexpects, hfilling⟩
    · exact .inl hfresh
    · exact .inr ⟨first, next, groups, rest, hoff, hfirst, hexpects, hfilling.free rfl⟩

theorem inGroups_run (hpos : 0 < target) : ∀ (calls : List Call) (s : Session) (log : List (Nat × Except Failure Bool)),
    Follows AudioInPace s calls → InGroups target log s → InGroups target (log ++ s.appends calls) (s.run calls)
  | [], s, log, _, h => by
    rw [appends, List.append_nil]
    exact h
  | call :: calls, s, log, hf, h => by
    rw [appends, ← List.append_assoc]
    exact inGroups_run hpos calls (s.apply call) _ hf.2 (inGroups_apply hpos h call hf.1)

theorem exists_filling (hpos : 0 < target) (h : InGroups target log s) : ∃ a v first next groups rest,
    s.segmenter = ⟨a, .audio v⟩ ∧ (s.due = .manage → a.pending = none) ∧
    (s.placed ≠ [] ∨ rest ≠ [] → Moment.firstTick s.history = some first) ∧
    Filling target log s.placed s.slot a.fragment first next groups rest := by
  obtain ⟨a, v, hs, -, -, ⟨-, -, hplaced, rfl, -, hp, hempty⟩ |
    ⟨first, next, groups, rest, -, hfirst, hexpects, hfilling⟩⟩ := h
  · rw [hplaced]
    exact ⟨a, v, 0, 0, [], [], hs, fun _ => hp, fun hn => absurd hn (by simp), .nothing hpos 0 s.slot hempty⟩
  · refine ⟨a, v, first, next, groups, rest, hs, fun hdue => ?_, fun _ => hfirst, hfilling⟩
    rw [hdue] at hexpects
    exact hexpects.1

/-- Whether the slots hold groups of durations, one after the other from where the first frame arrived. -/
def Emitted (s : Session) (groups : List (List Nat)) : Prop :=
  List.Forall₂ Slot.Lasts s.placed groups ∧
  (s.placed ≠ [] → ∃ first, Moment.firstTick s.history = some first ∧ Slot.Abut first s.placed)

/-- **`finish` emits the rest**, or nothing when there is none. -/
theorem emitted_finish {a : Assembly} {v : AudioStream} {first next : Nat} {groups : List (List Nat)} {rest : List Nat}
    (hs : s.segmenter = ⟨a, .audio v⟩) (hp : a.pending = none)
    (hfirst : s.placed ≠ [] ∨ rest ≠ [] → Moment.firstTick s.history = some first)
    (h : Filling target log s.placed s.slot a.fragment first next groups rest)
    (hfit : ¬(s.segmenter.finish s.slot).Overflows) :
    ((s.segmenter.finish s.slot).result = .ok true ↔ rest ≠ []) ∧
    (s.apply .finish).Emitted (groups ++ if rest = [] then [] else [rest]) := by
  have habsorb : s.segmenter.absorb = s.segmenter := by
    rw [hs, Segmenter.absorb]
    simp only [AudioStream.absorb, hp]
  have hhistory : ∀ {first}, Moment.firstTick s.history = some first →
      Moment.firstTick (s.apply .finish).history = some first := fun h => Moment.firstTick_append h _
  have hplaced : (s.apply .finish).placed = s.placed ++ (s.segmenter.finish s.slot).made := rfl
  by_cases hrest : rest = []
  · have hempty : s.segmenter.absorb.assembly.fragment.isEmpty = true := by
      rw [habsorb, hs]
      exact h.stored.isEmpty_iff.2 hrest
    obtain ⟨hnone, hmade⟩ := s.segmenter.finish_of_isEmpty s.slot hempty
    rw [hmade, List.append_nil] at hplaced
    rw [if_pos hrest, List.append_nil, Emitted, hplaced]
    refine ⟨iff_of_false hnone (not_not.2 hrest), h.stored.lasts, fun hn => ?_⟩
    exact ⟨first, hhistory (hfirst (.inl hn)), h.stored.abut⟩
  · have hfree : s.slot.isEmpty = true := by
      by_contra hheld
      exact hrest (h.held (by simpa using hheld))
    obtain ⟨hheld, -⟩ | ⟨-, hresult, hslot, -⟩ := s.segmenter.finish_cases s.slot
    · rw [hfree] at hheld
      cases hheld
    · rw [habsorb, hs] at hresult hslot
      have hclose : ¬(a.close s.slot).Overflows := by
        unfold Outcome.Overflows at hfit ⊢
        rw [hs, hresult] at hfit
        exact hfit
      obtain ⟨htrue, hstored⟩ := h.stored.close s.slot hrest hclose
      have hmade : (s.segmenter.finish s.slot).made = [(a.close s.slot).slot] := by
        rw [hs, Outcome.made_congr hresult hslot, Outcome.made, htrue]
      rw [hmade] at hplaced
      rw [if_neg hrest, Emitted, hplaced]
      refine ⟨iff_of_true (by rw [hs]; exact hresult.trans htrue) hrest, hstored.lasts, fun _ => ?_⟩
      exact ⟨first, hhistory (hfirst (.inr hrest)), hstored.abut⟩

end

/-- **An audio track in pace is cut exactly when a segment is full.**  The frame durations are groups that reach the target
with their last member, and a rest that does not; an `append` answers `true` exactly at the last member of a group.  The
slots hold the groups, one after the other from where the first frame arrived.  A `finish` then emits the rest, or nothing
when there is none. -/
theorem cut_when_full (plan : SegmenterPlan) (capacity : Nat) (calls : List Call) (hpos : 0 < plan.target)
    (h : Follows AudioInPace (start .audio plan capacity) calls) :
    let s := (start .audio plan capacity).run calls
    let log := (start .audio plan capacity).appends calls
    ∃ groups rest, Grouped plan.target (log.map Prod.fst) groups rest ∧
      log.map Prod.snd = (closes groups rest).map .ok ∧ s.Emitted groups ∧
      (s.due = .manage → ¬(s.segmenter.finish s.slot).Overflows →
        ((s.segmenter.finish s.slot).result = .ok true ↔ rest ≠ []) ∧
        (s.apply .finish).Emitted (groups ++ if rest = [] then [] else [rest])) := by
  intro s log
  have hgroups : InGroups plan.target log s :=
    inGroups_run hpos calls _ [] h (inGroups_start plan capacity)
  obtain ⟨a, v, first, next, groups, rest, hs, hp, hfirst, hfilling⟩ := exists_filling hpos hgroups
  refine ⟨groups, rest, hfilling.grouped, hfilling.answers, ⟨hfilling.stored.lasts, fun hn => ?_⟩, fun hdue hfit => ?_⟩
  · exact ⟨first, hfirst (.inl hn), hfilling.stored.abut⟩
  · exact emitted_finish hs (hp hdue) hfirst hfilling hfit

/-- Six frames of changing duration, counted in milliseconds; the slot is emptied after each. -/
def changingFrames : List Call :=
  [(0, 400), (400, 300), (700, 500), (1200, 600), (1800, 400), (2200, 200)].flatMap fun (ms, samples) =>
    [.manage (.audio ⟨1000000000 + ms * 1000000, 1000, 2, samples, [7]⟩), .configure, .append, .clear]

theorem cut_when_full_changingFrames : 0 < millisecondPlan.target ∧
    Follows AudioInPace (start .audio millisecondPlan 4096) changingFrames ∧
    let s := (start .audio millisecondPlan 4096).run changingFrames
    let log := (start .audio millisecondPlan 4096).appends changingFrames
    ∃ groups rest, Grouped millisecondPlan.target (log.map Prod.fst) groups rest ∧
      log.map Prod.snd = (closes groups rest).map .ok ∧ s.Emitted groups ∧
      (s.due = .manage → ¬(s.segmenter.finish s.slot).Overflows →
        ((s.segmenter.finish s.slot).result = .ok true ↔ rest ≠ []) ∧
        (s.apply .finish).Emitted (groups ++ if rest = [] then [] else [rest])) := by
  have hpos : 0 < millisecondPlan.target := by decide
  have h : Follows AudioInPace (start .audio millisecondPlan 4096) changingFrames := by decide +kernel
  exact ⟨hpos, h, cut_when_full millisecondPlan 4096 changingFrames hpos h⟩

/-- The third and the fifth frame complete a segment of a second; `finish` emits the sixth frame. -/
example : (((start .audio millisecondPlan 4096).run changingFrames).apply .finish).placed.map
    (fun slot => (slot.timestamp, slot.duration)) = [(0, 1200), (1200, 1000), (2200, 200)] := by decide +kernel

end Session
end Packager

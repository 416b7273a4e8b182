import Mathlib.Tactic.Ring
import Packager.Proofs.AudioTimeline
/-!
# Proofs.Cadence — how long an audio clock keeps step with a regular stream

In a regular stream every frame starts where the one before ends.  The clock expects frame `k` at `k` frame durations of
whole ticks, the frame arrives where its time stamp is, and what is cut off the duration adds up.  So the clock keeps step
for ever when the duration is a whole number of ticks, and otherwise lags until it jumps (`jumps_unless_whole`).
-/
namespace Packager

namespace AudioStream

/-- A frame that makes a sample is taken, with the rate and the time stamp that it states. -/
theorem manage_of_sample {f : AudioFrame} (a : Assembly) (v : AudioStream)
    (h : (Frame.audio f).sample?.isSome = true) (hrate : 0 < f.sampleRate) :
    ∃ isNew b w, manage a v f = .ok (isNew, b, w) ∧ w.sampleRate = f.sampleRate ∧ w.samples = f.samples ∧
      w.lastPts = f.pts := by
  unfold Frame.sample? at h
  simp only at h
  by_cases hd : f.data.isEmpty = true
  · simp [hd] at h
  · cases hh : Adts.header? f.data with
    | error fault => simp [hd, hh] at h
    | ok header =>
      have hkept : orHeader f.sampleRate Adts.Header.samplingRate header = f.sampleRate := by
        cases header with
        | none => rfl
        | some header => exact if_neg (Nat.ne_of_gt hrate)
      unfold manage
      simp only [hd, hh]
      exact ⟨_, _, _, rfl, hkept, rfl, rfl⟩

theorem configure_of_ticks {a : Assembly} {v : AudioStream} (hpts : 0 < v.lastPts) (hrate : 0 < v.sampleRate)
    (hticks : 0 < v.samples * a.clock.timeBase / v.sampleRate) :
    configure a v = .ok (a.configure (v.samples * a.clock.timeBase / v.sampleRate)) := by
  have hsamples : v.samples ≠ 0 := by
    intro h
    rw [h, Nat.zero_mul, Nat.zero_div] at hticks
    exact Nat.lt_irrefl 0 hticks
  unfold configure
  rw [if_neg (Nat.ne_of_gt hpts), if_neg hsamples, if_neg (Nat.ne_of_gt hrate)]
  exact if_neg (Nat.ne_of_gt hticks)

/-- **Without a jump a fragment is cut only when it is long enough.** -/
theorem append_of_no_jump (a : Assembly) {v : AudioStream} (slot : Slot) (hr : v.resync = false) :
    (append a v slot).state.2.resync = false ∧ ∀ s ∈ (append a v slot).made, a.target ≤ s.duration := by
  cases hp : a.pending with
  | none =>
    unfold append
    rw [hp]
    exact ⟨hr, fun _ h => absurd h List.not_mem_nil⟩
  | some p =>
    rw [append_in_pace hp hr]
    generalize hb : Assembly.push { a with pending := none } p = b
    have htarget : b.target = a.target := by rw [← hb]; rfl
    by_cases hfull : b.isFull = true ∧ slot.isEmpty = true
    · simp only [hfull, Bool.and_self, if_true]
      refine ⟨hr, fun s hs => ?_⟩
      obtain ⟨-, hlong⟩ := b.isFull_iff.1 hfull.1
      rcases b.close_cases slot with ⟨-, hc⟩ | ⟨-, ⟨length, capacity, hc⟩, -, -⟩ | ⟨-, hc, -, -, -, -, hd⟩
      · simp [Outcome.made, hc] at hs
      · simp [Outcome.made, hc] at hs
      · have he : s = (b.close slot).slot := by simpa [Outcome.made, hc] using hs
        rw [he, hd, ← htarget]
        exact hlong
    · rw [if_neg (by simpa using hfull)]
      exact ⟨hr, fun _ h => absurd h List.not_mem_nil⟩

end AudioStream

/-- A clock that counts from its first frame. -/
theorem Clock.accept_paced {timeBase tolerance frameTicks expected : Nat} {first : Nanos} (hpos : 0 < frameTicks)
    (pts : Nanos) :
    let ticks := nanosToTicks (pts - first) timeBase
    Clock.accept ⟨timeBase, tolerance, some first, none, frameTicks, expected⟩ pts =
      if frameTicks * tolerance < distance ticks (expected + frameTicks) then
        (⟨timeBase, tolerance, some first, none, frameTicks, ticks⟩, ⟨ticks, true⟩)
      else (⟨timeBase, tolerance, some first, none, frameTicks, expected + frameTicks⟩, ⟨ticks, false⟩) :=
  if_neg (Nat.ne_of_gt hpos)

/-- A regular audio stream: `samples` at `rate` per second in each frame. -/
structure Cadence where
  first : Nanos
  samples : Nat
  rate : Nat
  channels : Nat
  payload : Nat → Bytes

namespace Cadence

variable (c : Cadence)

def pts (k : Nat) : Nanos := c.first + k * c.samples * nanosPerSecond / c.rate

def frame (k : Nat) : AudioFrame := ⟨c.pts k, c.rate, c.channels, c.samples, c.payload k⟩

/-- The duration of a frame in whole ticks. -/
def ticks (timeBase : Nat) : Nat := c.samples * timeBase / c.rate

/-- The tick at which a frame arrives. -/
def arrival (timeBase k : Nat) : Nat := nanosToTicks (k * c.samples * nanosPerSecond / c.rate) timeBase

/-- How far a frame arrives from where a clock that never jumped expects it. -/
def lag (timeBase k : Nat) : Nat := Clock.distance (c.arrival timeBase k) (k * c.ticks timeBase)

theorem pts_zero : c.pts 0 = c.first := by simp [pts]

theorem pts_sub_first (k : Nat) : c.pts k - c.first = k * c.samples * nanosPerSecond / c.rate := by
  unfold pts
  rw [Nat.add_sub_cancel_left]

theorem lag_zero (timeBase : Nat) : c.lag timeBase 0 = 0 := by
  simp [lag, arrival, nanosToTicks, Clock.distance]

/-! ## Rounding -/

section
variable {c} {timeBase : Nat}

/-- The tick of a time stamp, before it is cut to a word, is never after the exact position of the frame. -/
theorem tick_le (hrate : 0 < c.rate) (k : Nat) :
    k * c.samples * nanosPerSecond / c.rate * timeBase / nanosPerSecond ≤ k * (c.samples * timeBase) / c.rate := by
  have hstamp := Nat.div_mul_le_self (k * c.samples * nanosPerSecond) c.rate
  generalize k * c.samples * nanosPerSecond / c.rate = x at hstamp
  have htick := Nat.div_mul_le_self (x * timeBase) nanosPerSecond
  rw [Nat.le_div_iff_mul_le hrate]
  refine Nat.le_of_mul_le_mul_right ?_ (show 0 < nanosPerSecond by decide)
  calc x * timeBase / nanosPerSecond * c.rate * nanosPerSecond
      = x * timeBase / nanosPerSecond * nanosPerSecond * c.rate := by ring
    _ ≤ x * timeBase * c.rate := Nat.mul_le_mul_right _ htick
    _ = x * c.rate * timeBase := by ring
    _ ≤ k * c.samples * nanosPerSecond * timeBase := Nat.mul_le_mul_right _ hstamp
    _ = k * (c.samples * timeBase) * nanosPerSecond := by ring

theorem arrival_le (hrate : 0 < c.rate) (k : Nat) : c.arrival timeBase k ≤ k * (c.samples * timeBase) / c.rate :=
  Nat.le_trans (Nat.mod_le _ _) (tick_le hrate k)

/-- **A frame never arrives before the exact position of the frame before it**, when frames last a nanosecond or longer:
cutting off part of a nanosecond and then part of a tick costs less than a frame. -/
theorem le_arrival (hrate : 0 < c.rate) (hlong : c.rate ≤ c.samples * nanosPerSecond) {k : Nat}
    (hword : (k + 1) * (c.samples * timeBase) / c.rate < UInt64.size) :
    k * (c.samples * timeBase) / c.rate ≤ c.arrival timeBase (k + 1) := by
  have hstamp := Nat.lt_div_mul_add (a := (k + 1) * c.samples * nanosPerSecond) hrate
  have htick : (k + 1) * c.samples * nanosPerSecond / c.rate * timeBase / nanosPerSecond ≤
      (k + 1) * (c.samples * timeBase) / c.rate := tick_le hrate (k + 1)
  unfold arrival nanosToTicks
  rw [Nat.mod_eq_of_lt (Nat.lt_of_le_of_lt htick hword)]
  generalize (k + 1) * c.samples * nanosPerSecond / c.rate = x at hstamp
  have hbefore : k * (c.samples * nanosPerSecond) ≤ x * c.rate := by
    have hsplit : (k + 1) * c.samples * nanosPerSecond = k * (c.samples * nanosPerSecond) + c.samples * nanosPerSecond := by
      ring
    omega
  have hexact := Nat.div_mul_le_self (k * (c.samples * timeBase)) c.rate
  rw [Nat.le_div_iff_mul_le (by decide)]
  refine Nat.le_of_mul_le_mul_right ?_ hrate
  calc k * (c.samples * timeBase) / c.rate * nanosPerSecond * c.rate
      = k * (c.samples * timeBase) / c.rate * c.rate * nanosPerSecond := by ring
    _ ≤ k * (c.samples * timeBase) * nanosPerSecond := Nat.mul_le_mul_right _ hexact
    _ = k * (c.samples * nanosPerSecond) * timeBase := by ring
    _ ≤ x * c.rate * timeBase := Nat.mul_le_mul_right _ hbefore
    _ = x * timeBase * c.rate := by ring

/-- **Frames of a whole number of ticks** never lag by more than one of them. -/
theorem lag_le_ticks (hrate : 0 < c.rate) (hlong : c.rate ≤ c.samples * nanosPerSecond)
    (hwhole : c.rate ∣ c.samples * timeBase) {k : Nat} (hword : k * c.ticks timeBase < UInt64.size) :
    c.lag timeBase k ≤ c.ticks timeBase := by
  have hposition : ∀ n, n * (c.samples * timeBase) / c.rate = n * c.ticks timeBase := fun n =>
    Nat.mul_div_assoc n hwhole
  cases k with
  | zero =>
    rw [lag_zero]
    exact Nat.zero_le _
  | succ k =>
    have hupper : c.arrival timeBase (k + 1) ≤ (k + 1) * (c.samples * timeBase) / c.rate := arrival_le hrate (k + 1)
    have hlower : k * (c.samples * timeBase) / c.rate ≤ c.arrival timeBase (k + 1) :=
      le_arrival hrate hlong (by rw [hposition]; exact hword)
    rw [hposition] at hupper hlower
    have hstep : (k + 1) * c.ticks timeBase = k * c.ticks timeBase + c.ticks timeBase := Nat.succ_mul _ _
    unfold lag Clock.distance
    split <;> omega

/-- **Frames of a broken number of ticks** arrive at least one tick later than expected for every `rate` frames. -/
theorem lt_lag (hrate : 0 < c.rate) (hlong : c.rate ≤ c.samples * nanosPerSecond)
    (hbroken : ¬c.rate ∣ c.samples * timeBase) {late : Nat}
    (hword : (c.rate * (late + c.ticks timeBase) + 1) * (c.samples * timeBase) / c.rate < UInt64.size) :
    late ≤ c.lag timeBase (c.rate * (late + c.ticks timeBase) + 1) := by
  have hlower := le_arrival hrate hlong hword
  have hrest : 0 < c.samples * timeBase % c.rate := Nat.pos_of_ne_zero fun h => hbroken (Nat.dvd_of_mod_eq_zero h)
  have hsplit : c.rate * c.ticks timeBase + c.samples * timeBase % c.rate = c.samples * timeBase :=
    Nat.div_add_mod _ _
  generalize hturns : late + c.ticks timeBase = turns at hlower ⊢
  have hexact : c.rate * turns * (c.samples * timeBase) / c.rate = turns * (c.samples * timeBase) := by
    rw [Nat.mul_assoc, Nat.mul_div_cancel_left _ hrate]
  have hexpected : (c.rate * turns + 1) * c.ticks timeBase + turns * (c.samples * timeBase % c.rate) =
      turns * (c.samples * timeBase) + c.ticks timeBase := by
    generalize c.samples * timeBase % c.rate = rest at hsplit
    rw [← hsplit]
    ring
  have hgain : turns ≤ turns * (c.samples * timeBase % c.rate) := Nat.le_mul_of_pos_right turns hrest
  rw [hexact] at hlower
  unfold lag Clock.distance
  split <;> omega

end

/-! ## The clock in step -/

variable (plan : SegmenterPlan) (capacity : Nat) (header : Slot)

/-- The calls for a frame; the slot is freed after each. -/
def calls (k : Nat) : List Call :=
  [.manage (.audio (c.frame k)), .configure, .describe header, .append, .clear]

/-- The session after a number of frames. -/
def session : Nat → Session
  | 0 => .start .audio plan capacity
  | n + 1 => (session n).run (c.calls header n)

/-- Whether the clock jumps at a frame. -/
def Jumps (k : Nat) : Prop := ((c.session plan capacity header k).assembly.clock.accept (c.pts k)).2.drifted = true

instance (k : Nat) : Decidable (c.Jumps plan capacity header k) := inferInstanceAs (Decidable (_ = _))

/-- A session that took `n` frames without a jump. -/
structure InStep (n : Nat) (s : Session) : Prop where
  clock : s.assembly.clock =
    if n = 0 then .start plan.timeBase plan.tolerance
    else ⟨plan.timeBase, max plan.tolerance 1, some c.first, none, c.ticks plan.timeBase, (n - 1) * c.ticks plan.timeBase⟩
  stream : ∃ v, s.segmenter.stream = .audio v ∧ v.resync = false
  pending : s.assembly.pending = none
  target : s.assembly.target = plan.target
  free : s.slot.isEmpty = true
  placed : ∀ slot ∈ s.placed, plan.target ≤ slot.duration
  timeline : (Moment.timeline s.history).map Prod.fst = (List.range n).map (· * c.ticks plan.timeBase)

theorem inStep_start : c.InStep plan 0 (.start .audio plan capacity) :=
  ⟨rfl, ⟨.start, rfl, rfl⟩, rfl, rfl, rfl, fun _ h => (List.not_mem_nil h).elim, rfl⟩

section
variable {c plan} {n : Nat} {s : Session}

/-- **The clock jumps exactly when the frame lags too far**; else it expects the next frame one duration on. -/
theorem InStep.accept (h : c.InStep plan n s) (hticks : 0 < c.ticks plan.timeBase) :
    ((s.assembly.clock.accept (c.pts n)).2.drifted = true ↔
      c.ticks plan.timeBase * max plan.tolerance 1 < c.lag plan.timeBase n) ∧
    (c.lag plan.timeBase n ≤ c.ticks plan.timeBase * max plan.tolerance 1 →
      (s.assembly.clock.accept (c.pts n)).1 = ⟨plan.timeBase, max plan.tolerance 1, some c.first, none,
        if n = 0 then 0 else c.ticks plan.timeBase, n * c.ticks plan.timeBase⟩) := by
  rw [h.clock]
  cases n with
  | zero =>
    rw [c.lag_zero, c.pts_zero]
    constructor
    · simp [Clock.start, Clock.accept]
    · intro _
      simp [Clock.start, Clock.accept, Clock.ticksAt, Clock.zero?, nanosToTicks]
  | succ n =>
    have harrival : nanosToTicks (c.pts (n + 1) - c.first) plan.timeBase = c.arrival plan.timeBase (n + 1) := by
      rw [pts_sub_first]
      rfl
    have hexpected : n * c.ticks plan.timeBase + c.ticks plan.timeBase = (n + 1) * c.ticks plan.timeBase :=
      (Nat.succ_mul _ _).symm
    rw [if_neg (Nat.succ_ne_zero n), if_neg (Nat.succ_ne_zero n), Nat.add_sub_cancel]
    rw [Clock.accept_paced hticks, harrival, hexpected]
    have hlag : Clock.distance (c.arrival plan.timeBase (n + 1)) ((n + 1) * c.ticks plan.timeBase) =
      c.lag plan.timeBase (n + 1) := rfl
    rw [hlag]
    by_cases hjump : c.ticks plan.timeBase * max plan.tolerance 1 < c.lag plan.timeBase (n + 1)
    · rw [if_pos hjump]
      exact ⟨iff_of_true rfl hjump, fun hle => absurd hjump (Nat.not_lt.2 hle)⟩
    · rw [if_neg hjump]
      exact ⟨iff_of_false Bool.false_ne_true hjump, fun _ => rfl⟩

/-- What the calls for a frame come to, once it was taken and its timing is known. -/
theorem run_calls {b : Assembly} {v : AudioStream} {isNew : Bool} {data : Bytes}
    (hd : (Frame.audio (c.frame n)).sample? = some (data, true))
    (hm : s.segmenter.manage (.audio (c.frame n)) = .ok (isNew, ⟨b, .audio v⟩))
    (hc : Segmenter.configure ⟨b, .audio v⟩ = .ok ⟨b.configure (c.ticks plan.timeBase), .audio v⟩) :
    let described := (Segmenter.describe ⟨b.configure (c.ticks plan.timeBase), .audio v⟩ header).state
    let out := described.append s.slot
    ∃ history due, Moment.timeline history = Moment.timeline s.history ++ [(b.clock.expected, data)] ∧
      s.run (c.calls header n) = ⟨out.state, out.slot.clear, due, history, s.placed ++ out.made⟩ := by
  intro described out
  unfold calls Session.run
  simp only [List.foldl_cons, List.foldl_nil]
  rw [Session.apply_manage_ok hm, Session.apply_configure_ok hc]
  refine ⟨_, _, ?_, rfl⟩
  show Moment.timeline (s.history ++ _ ++ _) = _
  rw [hd, Moment.timeline_append, Moment.timeline_append]
  have hnone : ∀ known : Bool, Moment.timeline (if known = true then [] else [Moment.configured]) = [] := by
    intro known
    cases known <;> rfl
  rw [hnone, List.append_nil]
  simp [Moment.timeline, hd]

/-- **A frame that does not lag too far is taken** for the tick at which the clock expects it, and its timing is known. -/
theorem InStep.taken (h : c.InStep plan n s) (hfirst : 0 < c.first) (hrate : 0 < c.rate)
    (hticks : 0 < c.ticks plan.timeBase) (hdata : (Frame.audio (c.frame n)).sample?.isSome = true)
    (hpace : c.lag plan.timeBase n ≤ c.ticks plan.timeBase * max plan.tolerance 1) :
    ∃ isNew b w data, (Frame.audio (c.frame n)).sample? = some (data, true) ∧
      s.segmenter.manage (.audio (c.frame n)) = .ok (isNew, ⟨b, .audio w⟩) ∧
      b.clock = ⟨plan.timeBase, max plan.tolerance 1, some c.first, none,
        if n = 0 then 0 else c.ticks plan.timeBase, n * c.ticks plan.timeBase⟩ ∧
      b.target = plan.target ∧ w.resync = false ∧
      AudioStream.configure b w = .ok (b.configure (c.ticks plan.timeBase)) := by
  obtain ⟨hdrift, hclock⟩ := h.accept hticks
  replace hclock := hclock hpace
  have hnone : (s.assembly.clock.accept (c.pts n)).2.drifted = false := by
    rw [← Bool.not_eq_true, hdrift]
    exact Nat.not_lt.2 hpace
  obtain ⟨v, hv, hr⟩ := h.stream
  obtain ⟨isNew, b, w, hm, hwrate, hwsamples, hwpts⟩ := AudioStream.manage_of_sample s.assembly v hdata hrate
  obtain ⟨data, phase, hd, hb, hw⟩ := AudioStream.manage_ok hm
  have hbclock : b.clock = ⟨plan.timeBase, max plan.tolerance 1, some c.first, none,
      if n = 0 then 0 else c.ticks plan.timeBase, n * c.ticks plan.timeBase⟩ := by
    rw [hb]
    exact hclock
  have hduration : w.samples * b.clock.timeBase / w.sampleRate = c.ticks plan.timeBase := by
    rw [hwsamples, hwrate, hbclock]
    rfl
  have hpts : 0 < w.lastPts := by
    rw [hwpts]
    exact Nat.lt_of_lt_of_le hfirst (Nat.le_add_right _ _)
  refine ⟨isNew, b, w, data, hd, ?_, hbclock, ?_, ?_, ?_⟩
  · have he : s.segmenter = ⟨s.assembly, .audio v⟩ := by rw [← hv]; rfl
    rw [he, Segmenter.manage_audio, hm]
    rfl
  · rw [hb]
    exact h.target
  · rw [hw, hr]
    show (false || (s.assembly.clock.accept (c.pts n)).2.drifted && _) = false
    rw [hnone]
    rfl
  · rw [← hduration]
    exact AudioStream.configure_of_ticks hpts (by rw [hwrate]; exact hrate) (by rw [hduration]; exact hticks)

/-- **A frame that does not lag too far leaves the clock in step.** -/
theorem InStep.next (h : c.InStep plan n s) (hfirst : 0 < c.first) (hrate : 0 < c.rate)
    (hticks : 0 < c.ticks plan.timeBase) (hdata : (Frame.audio (c.frame n)).sample?.isSome = true)
    (hpace : c.lag plan.timeBase n ≤ c.ticks plan.timeBase * max plan.tolerance 1) :
    c.InStep plan (n + 1) (s.run (c.calls header n)) := by
  obtain ⟨isNew, b, w, data, hd, hm, hbclock, hbtarget, hquiet, hcfg⟩ := h.taken hfirst hrate hticks hdata hpace
  have hready : Segmenter.configure ⟨b, .audio w⟩ = .ok ⟨b.configure (c.ticks plan.timeBase), .audio w⟩ := by
    rw [Segmenter.configure_audio, hcfg]
    rfl
  obtain ⟨history, due, hline, hrun⟩ := run_calls header hd hm hready
  rw [hrun]
  obtain ⟨metadata, described, hstate⟩ :=
    Segmenter.describe_state ⟨b.configure (c.ticks plan.timeBase), .audio w⟩ header
  rw [hstate]
  dsimp only
  generalize hassembly :
    ({ b.configure (c.ticks plan.timeBase) with metadata := metadata, described := described } : Assembly) = ready
  have hkept : ready.configured = true ∧ ready.target = plan.target ∧ ready.clock =
      ⟨plan.timeBase, max plan.tolerance 1, some c.first, none, c.ticks plan.timeBase, n * c.ticks plan.timeBase⟩ := by
    rw [← hassembly]
    refine ⟨rfl, hbtarget, ?_⟩
    show ({ b.clock with frameTicks := c.ticks plan.timeBase } : Clock) = _
    rw [hbclock]
  obtain ⟨hconfigured, htarget, hreadyclock⟩ := hkept
  rw [Segmenter.append_audio w s.slot hconfigured]
  obtain ⟨fragment, sequence, phase', hmoved⟩ := AudioStream.append_moved ready w s.slot
  obtain ⟨hresync, hlong⟩ := AudioStream.append_of_no_jump ready s.slot hquiet
  refine ⟨?_, ⟨_, rfl, hresync⟩, ?_, ?_, rfl, fun slot hs => ?_, ?_⟩
  · show (AudioStream.append ready w s.slot).state.1.clock = _
    rw [hmoved, if_neg (Nat.succ_ne_zero n), Nat.add_sub_cancel]
    exact hreadyclock
  · show (AudioStream.append ready w s.slot).state.1.pending = none
    rw [hmoved]
  · show (AudioStream.append ready w s.slot).state.1.target = plan.target
    rw [hmoved]
    exact htarget
  · rcases List.mem_append.1 hs with hs | hs
    · exact h.placed slot hs
    · rw [← htarget]
      exact hlong slot hs
  · show (Moment.timeline history).map Prod.fst = _
    rw [hline, List.map_append, h.timeline, List.range_succ, List.map_append, hbclock]
    rfl

end

section
variable {c plan}

/-- **As long as no frame lagged too far the clock is in step.** -/
theorem inStep_session (hfirst : 0 < c.first) (hrate : 0 < c.rate) (hticks : 0 < c.ticks plan.timeBase)
    (hdata : ∀ k, (Frame.audio (c.frame k)).sample?.isSome = true) : ∀ n,
    (∀ k < n, c.lag plan.timeBase k ≤ c.ticks plan.timeBase * max plan.tolerance 1) →
      c.InStep plan n (c.session plan capacity header n)
  | 0, _ => c.inStep_start plan capacity
  | n + 1, hpace =>
    (inStep_session hfirst hrate hticks hdata n fun k hk => hpace k (Nat.lt_succ_of_lt hk)).next header hfirst hrate
      hticks (hdata n) (hpace n (Nat.lt_succ_self n))

/-- **The first frame that lags too far is the first at which the clock jumps.** -/
theorem no_jump_iff (hfirst : 0 < c.first) (hrate : 0 < c.rate) (hticks : 0 < c.ticks plan.timeBase)
    (hdata : ∀ k, (Frame.audio (c.frame k)).sample?.isSome = true) : ∀ n,
    (∀ k < n, ¬c.Jumps plan capacity header k) ↔
      ∀ k < n, c.lag plan.timeBase k ≤ c.ticks plan.timeBase * max plan.tolerance 1
  | 0 => iff_of_true (fun k hk => absurd hk (Nat.not_lt_zero k)) fun k hk => absurd hk (Nat.not_lt_zero k)
  | n + 1 => by
    have ih := no_jump_iff hfirst hrate hticks hdata n
    have hlast : (∀ k < n, c.lag plan.timeBase k ≤ c.ticks plan.timeBase * max plan.tolerance 1) →
        (¬c.Jumps plan capacity header n ↔ c.lag plan.timeBase n ≤ c.ticks plan.timeBase * max plan.tolerance 1) := by
      intro hpace
      obtain ⟨hdrift, -⟩ := (inStep_session capacity header hfirst hrate hticks hdata n hpace).accept hticks
      unfold Jumps
      rw [hdrift, Nat.not_lt]
    constructor
    · intro hall k hk
      have hpace := ih.1 fun k hk => hall k (Nat.lt_succ_of_lt hk)
      rcases Nat.lt_succ_iff_lt_or_eq.1 hk with hk | rfl
      · exact hpace k hk
      · exact (hlast hpace).1 (hall k (Nat.lt_succ_self k))
    · intro hall k hk
      have hpace : ∀ k < n, c.lag plan.timeBase k ≤ c.ticks plan.timeBase * max plan.tolerance 1 :=
        fun k hk => hall k (Nat.lt_succ_of_lt hk)
      rcases Nat.lt_succ_iff_lt_or_eq.1 hk with hk | rfl
      · exact ih.2 hpace k hk
      · exact (hlast hpace).2 (hall k (Nat.lt_succ_self k))

end

/-- **When an audio clock keeps step with a regular stream.**  It jumps at the first frame that lags by more than the
tolerance.  Until then every frame is expected one duration after the one before and every segment is cut when it is long
enough.  With frames of a nanosecond or longer and positions within a word, it never comes to that when the rate divides
`samples * timeBase`, and it always does otherwise. -/
theorem jumps_unless_whole (hfirst : 0 < c.first) (hrate : 0 < c.rate) (hticks : 0 < c.ticks plan.timeBase)
    (hdata : ∀ k, (Frame.audio (c.frame k)).sample?.isSome = true) :
    (∀ n, (∀ k < n, ¬c.Jumps plan capacity header k) ↔
      ∀ k < n, c.lag plan.timeBase k ≤ c.ticks plan.timeBase * max plan.tolerance 1) ∧
    (∀ n, (∀ k < n, ¬c.Jumps plan capacity header k) →
      let s := c.session plan capacity header n
      (Moment.timeline s.history).map Prod.fst = (List.range n).map (· * c.ticks plan.timeBase) ∧
      ∀ slot ∈ s.placed, plan.target ≤ slot.duration) ∧
    (c.rate ≤ c.samples * nanosPerSecond →
      (c.rate ∣ c.samples * plan.timeBase → ∀ k, k * c.ticks plan.timeBase < UInt64.size →
        ¬c.Jumps plan capacity header k) ∧
      (¬c.rate ∣ c.samples * plan.timeBase →
        let late := c.ticks plan.timeBase * max plan.tolerance 1 + 1
        let last := c.rate * (late + c.ticks plan.timeBase) + 1
        last * (c.samples * plan.timeBase) / c.rate < UInt64.size →
          ∃ k ≤ last, c.Jumps plan capacity header k)) := by
  have hiff := no_jump_iff capacity header hfirst hrate hticks hdata
  refine ⟨hiff, fun n hnone => ?_, fun hlong => ⟨fun hwhole k hword => ?_, fun hbroken => ?_⟩⟩
  · have hstep := inStep_session capacity header hfirst hrate hticks hdata n ((hiff n).1 hnone)
    exact ⟨hstep.timeline, hstep.placed⟩
  · refine (hiff (k + 1)).2 (fun i hi => ?_) k (Nat.lt_succ_self k)
    have hle : i * c.ticks plan.timeBase ≤ k * c.ticks plan.timeBase :=
      Nat.mul_le_mul_right _ (Nat.le_of_lt_succ hi)
    have hlag := c.lag_le_ticks hrate hlong hwhole (Nat.lt_of_le_of_lt hle hword)
    exact Nat.le_trans hlag (Nat.le_mul_of_pos_right _ (Nat.le_max_right _ _))
  · intro late last hword
    have hlag : late ≤ c.lag plan.timeBase last := lt_lag hrate hlong hbroken hword
    by_contra hnone
    have hquiet : ∀ k < last + 1, ¬c.Jumps plan capacity header k := fun k hk hjump =>
      hnone ⟨k, Nat.le_of_lt_succ hk, hjump⟩
    have hpace := (hiff (last + 1)).1 hquiet last (Nat.lt_succ_self last)
    omega

/-- AAC frames of 1024 samples. -/
def aac (rate : Nat) : Cadence := ⟨1000000000, 1024, rate, 2, fun _ => [7]⟩

/-- Counted in samples, a frame lasts 1024 ticks and the clock never jumps. -/
theorem jumps_unless_whole_48kHz :
    let plan : SegmenterPlan := { SegmenterPlan.default with timeBase := 48000 }
    0 < (aac 48000).first ∧ 0 < (aac 48000).rate ∧ 0 < (aac 48000).ticks plan.timeBase ∧
    (∀ k, (Frame.audio ((aac 48000).frame k)).sample?.isSome = true) ∧
    ∀ k, k * 1024 < UInt64.size → ¬(aac 48000).Jumps plan 65536 (.empty 65536) k := by
  intro plan
  have hdata : ∀ k, (Frame.audio ((aac 48000).frame k)).sample?.isSome = true := fun _ => rfl
  have hticks : (aac 48000).ticks plan.timeBase = 1024 := by decide
  refine ⟨by decide, by decide, by decide, hdata, ?_⟩
  rw [← hticks]
  exact ((jumps_unless_whole (aac 48000) plan 65536 (.empty 65536) (by decide) (by decide) (by decide) hdata).2.2
    (by decide)).1 (by decide)

/-- With 50 ticks a second a frame at 32 kHz lasts 1.6 ticks, of which the clock counts one; the fifth frame arrives at
tick 6 and is expected at tick 4, where the fragment is cut long before it is full. -/
theorem regular_stream_jumps :
    let plan : SegmenterPlan := ⟨0, 1, 50, 1, 0⟩
    0 < (aac 32000).first ∧ 0 < (aac 32000).rate ∧ 0 < (aac 32000).ticks plan.timeBase ∧
    (∀ k, (Frame.audio ((aac 32000).frame k)).sample?.isSome = true) ∧
    (aac 32000).Jumps plan 65536 (.empty 65536) 4 ∧
    ∃ slot ∈ ((aac 32000).session plan 65536 (.empty 65536) 5).placed, slot.duration < plan.target := by
  intro plan
  refine ⟨by decide, by decide, by decide, fun _ => rfl, ?_, ?_⟩
  · decide +kernel
  · decide +kernel

/-- With the default plan that takes 2729 frames, 87 seconds. -/
example : (aac 32000).ticks SegmenterPlan.default.timeBase * max SegmenterPlan.default.tolerance 1 <
    (aac 32000).lag SegmenterPlan.default.timeBase 2729 := by decide

end Cadence
end Packager

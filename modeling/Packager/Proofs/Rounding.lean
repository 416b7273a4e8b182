import Packager.Publisher.Cycle
/-!
# Proofs.Rounding — what the two conversions of time lose

Nanoseconds become whole ticks, and ticks whole nanoseconds again; both times what is over is cut off.  So each way keeps
the order, and there and back never leads later: nanoseconds come back short by less than a tick and a nanosecond, ticks by
one tick at most, and by none when a tick is a whole number of nanoseconds.  A window is placed on the shared time line by
its ticks in nanoseconds, so it lies no later than its ticks say, and the windows of a track stay in order
(`placed_in_order`).
-/
namespace Packager

section
variable {n t timeBase : Nat}

/-- Whether the ticks of a span of nanoseconds fit a tick count. -/
def FitsTicks (n timeBase : Nat) : Prop := n * timeBase / nanosPerSecond < UInt64.size

instance (n timeBase : Nat) : Decidable (FitsTicks n timeBase) := inferInstanceAs (Decidable (_ < _))

/-- The whole ticks of a span are the ticks of the span, less a part of one. -/
theorem nanosToTicks_bounds (h : FitsTicks n timeBase) :
    nanosToTicks n timeBase * nanosPerSecond ≤ n * timeBase ∧
    n * timeBase < (nanosToTicks n timeBase + 1) * nanosPerSecond := by
  have hwhole : nanosToTicks n timeBase = n * timeBase / nanosPerSecond := Nat.mod_eq_of_lt h
  rw [hwhole, Nat.mul_comm (_ + 1)]
  exact ⟨Nat.div_mul_le_self _ _, Nat.lt_mul_div_succ _ (by decide)⟩

/-- The whole nanoseconds of some ticks are the time of the ticks, less a part of one. -/
theorem ticksToNanos_bounds (t : Nat) (h : 0 < timeBase) :
    ticksToNanos t timeBase * timeBase ≤ t * nanosPerSecond ∧
    t * nanosPerSecond < (ticksToNanos t timeBase + 1) * timeBase := by
  unfold ticksToNanos
  rw [Nat.mul_comm (_ + 1)]
  exact ⟨Nat.div_mul_le_self _ _, Nat.lt_mul_div_succ _ h⟩

/-- **More nanoseconds never make fewer ticks.** -/
theorem nanosToTicks_mono {m : Nat} (hle : m ≤ n) (h : FitsTicks n timeBase) :
    nanosToTicks m timeBase ≤ nanosToTicks n timeBase := by
  have hquotient : m * timeBase / nanosPerSecond ≤ n * timeBase / nanosPerSecond :=
    Nat.div_le_div_right (Nat.mul_le_mul_right _ hle)
  unfold nanosToTicks
  rw [Nat.mod_eq_of_lt h, Nat.mod_eq_of_lt (Nat.lt_of_le_of_lt hquotient h)]
  exact hquotient

/-- **More ticks never make fewer nanoseconds.** -/
theorem ticksToNanos_mono {s : Nat} (hle : s ≤ t) (timeBase : Nat) : ticksToNanos s timeBase ≤ ticksToNanos t timeBase :=
  Nat.div_le_div_right (Nat.mul_le_mul_right _ hle)

/-- The parts of a span are no longer than the span. -/
theorem ticksToNanos_add_le (s t timeBase : Nat) :
    ticksToNanos s timeBase + ticksToNanos t timeBase ≤ ticksToNanos (s + t) timeBase := by
  unfold ticksToNanos
  rw [Nat.add_mul]
  exact Nat.div_add_div_le_add_div

/-- **Nanoseconds come back short by less than a tick and a nanosecond.**  A tick is `nanosPerSecond / timeBase`
nanoseconds; the bound is cleared of the denominator. -/
theorem nanos_back (hpos : 0 < timeBase) (h : FitsTicks n timeBase) :
    ticksToNanos (nanosToTicks n timeBase) timeBase ≤ n ∧
    (n - ticksToNanos (nanosToTicks n timeBase) timeBase) * timeBase < nanosPerSecond + timeBase := by
  obtain ⟨hlow, hhigh⟩ := nanosToTicks_bounds h
  obtain ⟨hback, hshort⟩ := ticksToNanos_bounds (nanosToTicks n timeBase) hpos
  generalize nanosToTicks n timeBase = k at hlow hhigh hback hshort ⊢
  generalize ticksToNanos k timeBase = back at hback hshort ⊢
  refine ⟨Nat.le_of_mul_le_mul_right (Nat.le_trans hback hlow) hpos, ?_⟩
  rw [Nat.sub_mul]
  rw [Nat.add_mul] at hhigh hshort
  omega

/-- **Ticks come back short by one at most**, when a tick is no shorter than a nanosecond. -/
theorem ticks_back (hpos : 0 < timeBase) (hle : timeBase ≤ nanosPerSecond) (ht : t < UInt64.size) :
    nanosToTicks (ticksToNanos t timeBase) timeBase = t ∨ nanosToTicks (ticksToNanos t timeBase) timeBase + 1 = t := by
  obtain ⟨hback, hshort⟩ := ticksToNanos_bounds t hpos
  have hfits : FitsTicks (ticksToNanos t timeBase) timeBase := by
    refine Nat.lt_of_le_of_lt (Nat.div_le_div_right hback) ?_
    rwa [Nat.mul_div_cancel _ (by decide)]
  obtain ⟨hlow, hhigh⟩ := nanosToTicks_bounds hfits
  generalize ticksToNanos t timeBase = n at hback hshort hlow hhigh ⊢
  generalize nanosToTicks n timeBase = k at hlow hhigh ⊢
  have hupper : k ≤ t := Nat.le_of_mul_le_mul_right (Nat.le_trans hlow hback) (by decide)
  have hlower : t < k + 2 := by
    refine Nat.lt_of_mul_lt_mul_right (a := nanosPerSecond) ?_
    rw [Nat.add_mul] at hshort hhigh ⊢
    omega
  omega

/-- **Ticks of whole nanoseconds come back as they were.** -/
theorem ticks_back_of_dvd (hpos : 0 < timeBase) (hdvd : timeBase ∣ nanosPerSecond) (ht : t < UInt64.size) :
    nanosToTicks (ticksToNanos t timeBase) timeBase = t := by
  obtain ⟨tick, htick⟩ := hdvd
  have hwhole : ticksToNanos t timeBase = t * tick := by
    unfold ticksToNanos
    rw [htick, Nat.mul_left_comm, Nat.mul_div_cancel_left _ hpos]
  unfold nanosToTicks
  rw [hwhole, Nat.mul_assoc, Nat.mul_comm tick, ← htick, Nat.mul_div_cancel _ (by decide), Nat.mod_eq_of_lt ht]

end

/-! ## Windows -/

namespace Publisher

variable {p q : Publisher} {id : TrackId} {c d : Channel} {tickZero : Nanos}

/-- Where tick zero of a track lies on the time line that all tracks share. -/
def placeOf (p : Publisher) (tickZero : Nanos) : Nanos := tickZero - p.origin.getD tickZero

/-- A segment is placed by its ticks in nanoseconds, from where tick zero lies. -/
theorem window?_eq (p : Publisher) (id : TrackId) (h : c.segmenter.assembly.clock.zero? = some tickZero) :
    let timeBase := c.segmenter.assembly.clock.timeBase
    let start := p.placeOf tickZero + ticksToNanos c.slot.timestamp timeBase
    p.window? id c = some ⟨id, c.kind, start, start + ticksToNanos c.slot.duration timeBase⟩ := by
  unfold window?
  rw [h]
  rfl

/-- **A window lies no later than its ticks say**, in nanoseconds with a part of one left out: neither its start nor its
end. -/
theorem window_early {timeBase : Nat} (hbase : c.segmenter.assembly.clock.timeBase = timeBase) (hpos : 0 < timeBase)
    (hzero : c.segmenter.assembly.clock.zero? = some tickZero) {v : Window} (hv : p.window? id c = some v) :
    v.start * timeBase ≤ p.placeOf tickZero * timeBase + c.slot.timestamp * nanosPerSecond ∧
    v.finish * timeBase ≤
      p.placeOf tickZero * timeBase + (c.slot.timestamp + c.slot.duration) * nanosPerSecond := by
  rw [p.window?_eq id hzero, hbase] at hv
  cases hv
  have hstart := (ticksToNanos_bounds c.slot.timestamp hpos).1
  have hduration := (ticksToNanos_bounds c.slot.duration hpos).1
  rw [Nat.add_mul c.slot.timestamp, ← Nat.add_assoc]
  refine ⟨?_, ?_⟩
  · rw [Nat.add_mul]
    exact Nat.add_le_add_left hstart _
  · rw [Nat.add_mul, Nat.add_mul]
    exact Nat.add_le_add (Nat.add_le_add_left hstart _) hduration

/-- **A window starts no later than the frame at its first tick.** -/
theorem window_start_le (hpos : 0 < c.segmenter.assembly.clock.timeBase)
    (hzero : c.segmenter.assembly.clock.zero? = some tickZero) {v : Window} (hv : p.window? id c = some v) {pts : Nanos}
    (hfits : FitsTicks (pts - tickZero) c.segmenter.assembly.clock.timeBase)
    (hpts : c.slot.timestamp = c.segmenter.assembly.clock.ticksAt pts) :
    v.start ≤ p.placeOf tickZero + (pts - tickZero) := by
  have hticks : c.slot.timestamp = nanosToTicks (pts - tickZero) c.segmenter.assembly.clock.timeBase := by
    rw [hpts, Clock.ticksAt, hzero]
  rw [p.window?_eq id hzero, hticks] at hv
  cases hv
  exact Nat.add_le_add_left (nanos_back hpos hfits).1 _

/-- **Windows of a track lie in the order of their ticks**, as long as neither the origin nor tick zero moves. -/
theorem window_order (horigin : q.origin = p.origin)
    (hbase : d.segmenter.assembly.clock.timeBase = c.segmenter.assembly.clock.timeBase)
    (hc : c.segmenter.assembly.clock.zero? = some tickZero) (hd : d.segmenter.assembly.clock.zero? = some tickZero)
    {v v' : Window} (hv : p.window? id c = some v) (hv' : q.window? id d = some v') :
    (c.slot.timestamp ≤ d.slot.timestamp → v.start ≤ v'.start) ∧
    (c.slot.timestamp + c.slot.duration ≤ d.slot.timestamp → v.finish ≤ v'.start) := by
  have hplace : q.placeOf tickZero = p.placeOf tickZero := by
    unfold placeOf
    rw [horigin]
  rw [p.window?_eq id hc] at hv
  rw [q.window?_eq id hd, hplace, hbase] at hv'
  cases hv
  cases hv'
  refine ⟨fun hle => Nat.add_le_add_left (ticksToNanos_mono hle _) _, fun hle => ?_⟩
  show p.placeOf tickZero + _ + _ ≤ p.placeOf tickZero + _
  rw [Nat.add_assoc]
  exact Nat.add_le_add_left (Nat.le_trans (ticksToNanos_add_le _ _ _) (ticksToNanos_mono hle _)) _

end Publisher

/-- **Rounding moves nothing later and nothing past another.**  With at most a tick to the nanosecond both conversions
keep the order; nanoseconds come back short by less than a tick and a nanosecond, ticks by one at most, and by none when a
tick is a whole number of nanoseconds.  So a segment has a window as soon as its track has a tick zero; counted from where
tick zero lies, the window starts and ends no later than its ticks say, and starts no later than the frame at its first
tick.  Of two windows of a track, at whatever times, the one with the later ticks starts no earlier, and does not reach
into the other when the ticks do not. -/
theorem placed_in_order (timeBase : Nat) (hpos : 0 < timeBase) (hle : timeBase ≤ nanosPerSecond) :
    (∀ m n, m ≤ n → FitsTicks n timeBase → nanosToTicks m timeBase ≤ nanosToTicks n timeBase) ∧
    (∀ s t, s ≤ t → ticksToNanos s timeBase ≤ ticksToNanos t timeBase) ∧
    (∀ n, FitsTicks n timeBase → ticksToNanos (nanosToTicks n timeBase) timeBase ≤ n ∧
      (n - ticksToNanos (nanosToTicks n timeBase) timeBase) * timeBase < nanosPerSecond + timeBase) ∧
    (∀ t, t < UInt64.size → (nanosToTicks (ticksToNanos t timeBase) timeBase = t ∨
        nanosToTicks (ticksToNanos t timeBase) timeBase + 1 = t) ∧
      (timeBase ∣ nanosPerSecond → nanosToTicks (ticksToNanos t timeBase) timeBase = t)) ∧
    ∀ (p : Publisher) (id : TrackId) (c : Channel) (tickZero : Nanos), c.segmenter.assembly.clock.timeBase = timeBase →
      c.segmenter.assembly.clock.zero? = some tickZero → ∃ v, p.window? id c = some v ∧
      v.start * timeBase ≤ p.placeOf tickZero * timeBase + c.slot.timestamp * nanosPerSecond ∧
      v.finish * timeBase ≤ p.placeOf tickZero * timeBase + (c.slot.timestamp + c.slot.duration) * nanosPerSecond ∧
      (∀ pts, FitsTicks (pts - tickZero) timeBase → c.slot.timestamp = c.segmenter.assembly.clock.ticksAt pts →
        v.start ≤ p.placeOf tickZero + (pts - tickZero)) ∧
      ∀ (q : Publisher) (d : Channel) (v' : Window), q.origin = p.origin →
        d.segmenter.assembly.clock.timeBase = timeBase → d.segmenter.assembly.clock.zero? = some tickZero →
        q.window? id d = some v' → (c.slot.timestamp ≤ d.slot.timestamp → v.start ≤ v'.start) ∧
          (c.slot.timestamp + c.slot.duration ≤ d.slot.timestamp → v.finish ≤ v'.start) := by
  refine ⟨fun m n => nanosToTicks_mono, fun s t hst => ticksToNanos_mono hst timeBase, fun n => nanos_back hpos,
    fun t ht => ⟨ticks_back hpos hle ht, fun hdvd => ticks_back_of_dvd hpos hdvd ht⟩,
    fun p id c tickZero hbase hzero => ?_⟩
  have hv := p.window?_eq id hzero
  obtain ⟨hstart, hfinish⟩ := Publisher.window_early hbase hpos hzero hv
  subst hbase
  exact ⟨_, hv, hstart, hfinish, fun pts => Publisher.window_start_le hpos hzero hv,
    fun q d v' horigin hbase hd hv' => Publisher.window_order horigin hbase hzero hd hv hv'⟩

/-- A track of ninety thousand ticks to the second, no whole number of nanoseconds each, that counts from the first second
and holds a segment from its second tick on. -/
def ninetyKilohertz : Channel where
  segmenter := ((Segmenter.start .video ⟨1, 2, 90000, 4, 0⟩).setOrigin 1000000000).2
  slot := ⟨4096, [7], 1, 1, 1, 3000⟩

theorem placed_in_order_ninetyKilohertz : 0 < 90000 ∧ 90000 ≤ nanosPerSecond ∧
    ticksToNanos (nanosToTicks 100001 90000) 90000 = 100000 ∧
    (100001 - 100000) * 90000 < nanosPerSecond + 90000 ∧
    nanosToTicks (ticksToNanos 1 90000) 90000 + 1 = 1 ∧
    ∃ v, (Publisher.mk .default .empty .empty (some 1000000000)).window? 1 ninetyKilohertz = some v ∧ v.start = 11111 ∧
      v.start ≤ 1000011112 - 1000000000 := by
  have hpos : 0 < 90000 := by decide
  have hle : 90000 ≤ nanosPerSecond := by decide
  obtain ⟨-, -, hnanos, hticks, hplaced⟩ := placed_in_order 90000 hpos hle
  obtain ⟨v, hv, -, -, hearly, -⟩ :=
    hplaced ⟨.default, .empty, .empty, some 1000000000⟩ 1 ninetyKilohertz 1000000000 rfl rfl
  have hback : ticksToNanos (nanosToTicks 100001 90000) 90000 = 100000 := by decide
  refine ⟨hpos, hle, hback, hback ▸ (hnanos 100001 (by decide)).2, ?_, v, hv, ?_, ?_⟩
  · exact (hticks 1 (by decide)).1.resolve_left (by decide)
  · cases hv
    decide
  · exact Nat.le_trans (hearly 1000011112 (by decide) (by decide)) (by decide)

end Packager

import Packager.Proofs.Moves
/-!
# Proofs.FixedParts — what taking and cutting frames leaves alone

No frame changes the parameters of a segmenter or its bitrate; its clock keeps the offset once it has one, and with it
tick zero.  A segmenter without an offset has taken no picture and no sound, so it is neither configured nor described
(`Segmenter.Grounded`).  Whatever the operations of a segmenter hand on, they hand on to the tracks of a publisher
(`Presentation.Move.channel_inherited`, `Presentation.run_each`).
-/
namespace Packager

namespace Clock

/-- **Taking a time stamp** sets the offset when there is none; tick zero is fixed from then on. -/
theorem accept_state (c : Clock) (pts : Nanos) : ∃ origin expected,
    (c.accept pts).1 = { c with offset := some (c.offset.getD pts), origin := origin, expected := expected } ∧
    (c.offset.isSome = true → origin = c.origin) := by
  obtain ⟨timeBase, tolerance, offset, origin, frameTicks, expected⟩ := c
  cases offset with
  | none => exact ⟨origin.map (min pts), _, rfl, nofun⟩
  | some first =>
    unfold accept
    simp only
    split
    · exact ⟨origin, _, rfl, fun _ => rfl⟩
    · split
      · exact ⟨origin, _, rfl, fun _ => rfl⟩
      · exact ⟨origin, _, rfl, fun _ => rfl⟩

theorem accept_zero (c : Clock) (pts : Nanos) (h : c.offset.isSome = true) :
    (c.accept pts).1.offset.isSome = true ∧ (c.accept pts).1.zero? = c.zero? := by
  obtain ⟨origin, expected, hc, horigin⟩ := c.accept_state pts
  obtain ⟨first, hfirst⟩ := Option.isSome_iff_exists.1 h
  rw [hc]
  refine ⟨rfl, ?_⟩
  unfold zero?
  rw [horigin h, hfirst]
  rfl

end Clock

/-! ## Streams before their first frame -/

/-- Whether a stream has taken no frame yet. -/
def Stream.Untimed : Stream → Prop
  | .audio v => v.lastPts = 0
  | .video v => v.lastTicks = none

namespace VideoStream

theorem absorbFrame_stream (a : Assembly) (v : VideoStream) (p : Pending) :
    ∃ start, (absorbFrame a v p).2 = { v with lastStart := start } := by
  unfold absorbFrame
  split
  · exact ⟨v.lastStart, rfl⟩
  · exact ⟨p.start, rfl⟩

theorem absorbAll_stream : ∀ (queue : List Pending) (a : Assembly) (v : VideoStream),
    ∃ start, (queue.foldl (fun (a, v) p => absorbFrame a v p) (a, v)).2 = { v with lastStart := start }
  | [], _, v => ⟨v.lastStart, rfl⟩
  | p :: queue, a, v => by
    obtain ⟨start, hs⟩ := absorbFrame_stream a v p
    obtain ⟨start', hs'⟩ := absorbAll_stream queue (absorbFrame a v p).1 (absorbFrame a v p).2
    exact ⟨start', hs'.trans (by rw [hs])⟩

end VideoStream

/-! ## What each operation keeps -/

namespace Segmenter

/-- Whether a segmenter without an offset is neither configured nor described, and has taken no frame. -/
def Grounded (s : Segmenter) : Prop := s.assembly.clock.offset = none →
  s.assembly.configured = false ∧ s.assembly.described = false ∧ s.stream.Untimed

/-- What is the same of a segmenter before and after. -/
structure Keeps (s g : Segmenter) : Prop where
  kind : g.kind = s.kind
  seconds : g.assembly.seconds = s.assembly.seconds
  target : g.assembly.target = s.assembly.target
  timeBase : g.assembly.clock.timeBase = s.assembly.clock.timeBase
  tolerance : g.assembly.clock.tolerance = s.assembly.clock.tolerance
  bitrate : g.assembly.bitrate = s.assembly.bitrate
  grounded : s.Grounded → g.Grounded
  /-- Tick zero, once it is fixed. -/
  zero : s.assembly.clock.offset.isSome = true →
    g.assembly.clock.offset.isSome = true ∧ g.assembly.clock.zero? = s.assembly.clock.zero?

variable {s g : Segmenter}

theorem Keeps.refl (s : Segmenter) : s.Keeps s := ⟨rfl, rfl, rfl, rfl, rfl, rfl, fun h => h, fun h => ⟨h, rfl⟩⟩

theorem Keeps.trans {t : Segmenter} (h : s.Keeps g) (h' : g.Keeps t) : s.Keeps t :=
  ⟨h'.kind.trans h.kind, h'.seconds.trans h.seconds, h'.target.trans h.target, h'.timeBase.trans h.timeBase,
    h'.tolerance.trans h.tolerance, h'.bitrate.trans h.bitrate, fun hs => h'.grounded (h.grounded hs),
    fun hs => ⟨(h'.zero (h.zero hs).1).1, (h'.zero (h.zero hs).1).2.trans (h.zero hs).2⟩⟩

theorem grounded_start (kind : Kind) (plan : SegmenterPlan) : (start kind plan).Grounded := by
  intro _
  cases kind <;> exact ⟨rfl, rfl, rfl⟩

theorem keeps_manage {frame : Frame} {isNew : Bool} (h : s.manage frame = .ok (isNew, g)) : s.Keeps g := by
  rcases manage_cases h with ⟨a, v, f, b, w, rfl, rfl, hm, rfl⟩ | ⟨a, v, f, b, w, rfl, rfl, hm, rfl⟩
  · obtain ⟨data, phase, -, rfl, -⟩ := AudioStream.manage_ok hm
    have hzero := a.clock.accept_zero f.pts
    obtain ⟨origin, expected, hc, -⟩ := a.clock.accept_state f.pts
    rw [hc] at hzero ⊢
    exact ⟨rfl, rfl, rfl, rfl, rfl, rfl, fun _ => nofun, hzero⟩
  · rcases VideoStream.manage_taken hm with ⟨-, rfl, sps, pps, rfl, -⟩ | ⟨data, isSync, phase, -, rfl, -, -⟩
    · exact ⟨rfl, rfl, rfl, rfl, rfl, rfl, fun h => h, fun h => ⟨h, rfl⟩⟩
    · have hzero := a.clock.accept_zero f.pts
      obtain ⟨origin, expected, hc, -⟩ := a.clock.accept_state f.pts
      rw [hc] at hzero ⊢
      exact ⟨rfl, rfl, rfl, rfl, rfl, rfl, fun _ => nofun, hzero⟩

theorem Grounded.of_offset (h : s.assembly.clock.offset.isSome = true) : s.Grounded := fun hn => by
  rw [hn] at h
  cases h

/-- A segmenter that is configured has an offset. -/
theorem Grounded.offset (h : s.Grounded) (hc : s.assembly.configured = true) :
    s.assembly.clock.offset.isSome = true := by
  cases ho : s.assembly.clock.offset with
  | some => rfl
  | none =>
    rw [(h ho).1] at hc
    cases hc

/-- A stream without a frame cannot be configured. -/
theorem configure_ne_ok (hs : s.stream.Untimed) : s.configure ≠ .ok g := by
  intro h
  obtain ⟨a, stream⟩ := s
  cases stream with
  | audio v =>
    rw [configure_audio] at h
    obtain ⟨b, hb, -⟩ := ok_of_map h
    have hs : v.lastPts = 0 := hs
    unfold AudioStream.configure at hb
    rw [if_pos hs] at hb
    cases hb
  | video v =>
    rw [configure_video] at h
    obtain ⟨b, hb, -⟩ := ok_of_map h
    obtain ⟨-, last, previous, hlast, -⟩ := VideoStream.configure_ok hb
    have hs : v.lastTicks = none := hs
    rw [hs] at hlast
    cases hlast

theorem keeps_configure (h : s.configure = .ok g) : s.Keeps g := by
  obtain ⟨ticks, phase, hstate⟩ := configure_state h
  rw [hstate]
  refine ⟨rfl, rfl, rfl, rfl, rfl, rfl, fun hs => .of_offset ?_, fun h => ⟨h, rfl⟩⟩
  cases ho : s.assembly.clock.offset with
  | some => rfl
  | none => exact absurd h (configure_ne_ok (hs ho).2.2)

theorem keeps_describe (s : Segmenter) (slot : Slot) : s.Keeps (s.describe slot).state := by
  obtain ⟨metadata, described, hstate⟩ := s.describe_state slot
  refine ⟨by rw [hstate]; rfl, by rw [hstate], by rw [hstate], by rw [hstate], by rw [hstate], by rw [hstate],
    fun hs => ?_, fun h => by rw [hstate]; exact ⟨h, rfl⟩⟩
  cases hc : s.assembly.configured with
  | true =>
    refine .of_offset ?_
    rw [hstate]
    exact hs.offset hc
  | false =>
    rw [describe, if_pos (by rw [hc]; rfl)]
    exact hs

theorem keeps_append (s : Segmenter) (slot : Slot) : s.Keeps (s.append slot).state := by
  cases hc : s.assembly.configured with
  | false =>
    rw [append_of_unconfigured hc]
    exact .refl s
  | true =>
    obtain ⟨hkind, f, n, phase, hstate⟩ := append_moved hc slot
    refine ⟨hkind, by rw [hstate], by rw [hstate], by rw [hstate], by rw [hstate], by rw [hstate],
      fun hs => .of_offset ?_, fun h => by rw [hstate]; exact ⟨h, rfl⟩⟩
    rw [hstate]
    exact hs.offset hc

theorem keeps_absorb (s : Segmenter) : s.Keeps s.absorb := by
  obtain ⟨a, stream⟩ := s
  cases stream with
  | audio v =>
    obtain ⟨f, n, phase, hstate⟩ := AudioStream.absorb_moved a
    unfold absorb
    simp only [hstate]
    exact ⟨rfl, rfl, rfl, rfl, rfl, rfl, fun h => h, fun h => ⟨h, rfl⟩⟩
  | video v =>
    obtain ⟨⟨f, n, phase, hstate⟩, -⟩ := VideoStream.absorb_moved a v
    obtain ⟨start, hstream⟩ := VideoStream.absorbAll_stream (VideoStream.queue a v) { a with pending := none }
      { v with preroll := [] }
    unfold absorb
    simp only [hstate]
    refine ⟨rfl, rfl, rfl, rfl, rfl, rfl, fun h ho => ⟨(h ho).1, (h ho).2.1, ?_⟩, fun h => ⟨h, rfl⟩⟩
    show (VideoStream.absorb a v).2.lastTicks = none
    unfold VideoStream.absorb
    rw [hstream]
    exact (h ho).2.2

theorem keeps_finish (s : Segmenter) (slot : Slot) : s.Keeps (s.finish slot).state := by
  rcases s.finish_cases slot with ⟨-, he⟩ | ⟨-, -, -, phase, hstate⟩
  · rw [he]
    exact .refl s
  · obtain ⟨f, n, phase', hclose, -⟩ := s.absorb.assembly.close_state slot
    refine s.keeps_absorb.trans ?_
    rw [hstate, hclose]
    exact ⟨rfl, rfl, rfl, rfl, rfl, rfl, fun h => h, fun h => ⟨h, rfl⟩⟩

theorem keeps_flush (s : Segmenter) : s.Keeps s.flush := by
  obtain ⟨a, stream⟩ := s
  cases stream <;>
    exact ⟨rfl, rfl, rfl, rfl, rfl, rfl, fun h ho => ⟨(h ho).1, rfl, (h ho).2.2⟩, fun h => ⟨h, rfl⟩⟩

theorem keeps_setOrigin (s : Segmenter) (origin : Nanos) : s.Keeps (s.setOrigin origin).2 := by
  unfold setOrigin Clock.setOrigin
  split
  rename_i h
  split at h <;> cases h
  · exact .refl s
  · rename_i hfree
    refine ⟨rfl, rfl, rfl, rfl, rfl, rfl, fun h => h, fun h => absurd ?_ hfree⟩
    rw [h]
    rfl

theorem keeps_inherited : Inherited Keeps :=
  ⟨.refl, .trans, keeps_manage, keeps_configure, keeps_describe, keeps_append, keeps_finish, keeps_flush,
    keeps_setOrigin⟩

theorem grounded_inherited : Inherited fun s g => s.Grounded → g.Grounded :=
  keeps_inherited.mono Keeps.grounded (fun _ h => h) fun h h' hs => h' (h hs)

end Segmenter

/-! ## The tracks of a publisher -/

section
variable {R : Segmenter → Segmenter → Prop} (hR : Segmenter.Inherited R)
include hR

namespace Channel

variable (w : World) (settings : Settings) (id : TrackId)

theorem feed_inherited (c : Channel) (frame : Frame) (j : Journal) :
    R c.segmenter (c.feed w.outlet settings id frame j).1.channel.segmenter := by
  have hcourse := feed_course w settings id c frame j
  generalize c.feed w.outlet settings id frame j = out at hcourse ⊢
  have hdescribed : ∀ {isNew g g' result state slot}, c.segmenter.manage frame = .ok (isNew, g) →
      g.configure = .ok g' → g'.describe (.empty settings.segment.maxBytes) = ⟨result, state, slot⟩ →
      R c.segmenter state := by
    intro isNew g g' result state slot hm hc hh
    have hk := hR.describe g' (.empty settings.segment.maxBytes)
    rw [hh] at hk
    exact hR.trans (hR.trans (hR.manage hm) (hR.configure hc)) hk
  cases hcourse with
  | refused => exact hR.refl c.segmenter
  | waiting hm hc => exact hR.manage hm
  | rejected hm hc hh => exact hdescribed hm hc hh
  | @appended _ _ _ state _ hm hc hh => exact hR.trans (hdescribed hm hc hh) (hR.append state c.slot)
  | @failed _ _ _ state _ _ hm hc hh hw => exact hR.trans (hdescribed hm hc hh) (hR.flush state)
  | @made _ _ _ state _ hm hc hh hw => exact hR.trans (hdescribed hm hc hh) (hR.append state c.slot)

theorem drain_inherited (c : Channel) (j : Journal) :
    R c.segmenter (c.drain w.outlet settings id j).1.2.segmenter := by
  rw [drain_apply]
  obtain ⟨-, hheld, -⟩ := publishIf_closes w settings id c.isHolding c j
  generalize c.publishIf w settings id c.isHolding j = held at hheld ⊢
  obtain ⟨-, hlast, -⟩ := publishIf_closes w settings id held.1.2.finish.1 held.1.2.finish.2 held.2
  dsimp only at hlast ⊢
  rw [hlast, ← hheld]
  exact hR.finish held.1.2.segmenter held.1.2.slot

end Channel

/-- **Where a channel comes from**: it was there before and inherited from what it was, its bitrate was set, or it is
new. -/
theorem Presentation.Move.channel_inherited {w : World} {s t : Presentation} (h : Move w s t) {id : TrackId} {d : Channel}
    (hd : t.publisher.channels.find? id = some d) :
    (∃ c, s.publisher.channels.find? id = some c ∧ R c.segmenter d.segmenter) ∨
    (∃ c bitrate, s.publisher.channels.find? id = some c ∧ d.segmenter = c.segmenter.setBitrate bitrate) ∨
    ∃ kind, R (Segmenter.start kind (s.publisher.settings.plan id kind)) d.segmenter := by
  have still : ∀ {p : Publisher}, p.channels.find? id = some d →
      ∃ c, p.channels.find? id = some c ∧ R c.segmenter d.segmenter := fun hf => ⟨d, hf, hR.refl d.segmenter⟩
  have exchanged : ∀ {p : Publisher} {id' : TrackId} {c e : Channel}, p.channels.find? id' = some c →
      R c.segmenter e.segmenter → (p.setChannel id' e).channels.find? id = some d →
      ∃ c, p.channels.find? id = some c ∧ R c.segmenter d.segmenter := by
    intro p id' c e hc hk hf
    obtain ⟨rfl, rfl⟩ | ⟨-, hf⟩ := Publisher.find?_setChannel_cases hf
    · exact ⟨c, hc, hk⟩
    · exact still hf
  cases h with
  | manifest => exact .inl (still hd)
  | @added p id' hfree j kind c hc =>
    have hd : (p.setChannel id' c).channels.find? id = some d := hd
    obtain ⟨rfl, rfl⟩ | ⟨-, hf⟩ := Publisher.find?_setChannel_cases hd
    · refine .inr (.inr ⟨kind, ?_⟩)
      rcases hc with rfl | ⟨origin, rfl⟩
      · exact hR.refl _
      · exact hR.setOrigin _ origin
    · exact .inl (still hf)
  | @counted p hnone j origin =>
    rw [SortedMap.find?_mapValues, Option.map_eq_some_iff] at hd
    obtain ⟨c, hc, rfl⟩ := hd
    exact .inl ⟨c, hc, hR.setOrigin c.segmenter origin⟩
  | @fed p id' c hc j frame => exact .inl (exchanged hc (c.feed_inherited hR w p.settings id' frame j) hd)
  | held => exact .inl (still hd)
  | @discarded p id' c window hc =>
    have hd : (p.setChannel id' { c with slot := c.slot.clear }).channels.find? id = some d := hd
    have hk : R c.segmenter ({ c with slot := c.slot.clear } : Channel).segmenter := hR.refl c.segmenter
    exact .inl (exchanged hc hk hd)
  | @released p id' c window hc hh hw hv j =>
    have hd : (p.setChannel id' (c.publish w.outlet p.settings id' j).1.2).channels.find? id = some d := hd
    refine .inl (exchanged hc ?_ hd)
    rw [(Channel.publish_closes w p.settings id' c j).2]
    exact hR.refl c.segmenter
  | forced => exact .inl (still hd)
  | @drained p id' c hc hk j => exact .inl (exchanged hc (c.drain_inherited hR w p.settings id' j) hd)
  | @rated p id' c hc j bitrate =>
    obtain ⟨rfl, rfl⟩ | ⟨-, hf⟩ := Publisher.find?_setChannel_cases hd
    · exact .inr (.inl ⟨c, bitrate, hc, rfl⟩)
    · exact .inl (still hf)
  | removed => exact .inl (still (Publisher.find?_erase_cases hd).2)

end

theorem Channel.keeps_feed (w : World) (settings : Settings) (id : TrackId) (c : Channel) (frame : Frame) (j : Journal) :
    c.segmenter.Keeps (c.feed w.outlet settings id frame j).1.channel.segmenter :=
  c.feed_inherited Segmenter.keeps_inherited w settings id frame j

theorem Channel.keeps_drain (w : World) (settings : Settings) (id : TrackId) (c : Channel) (j : Journal) :
    c.segmenter.Keeps (c.drain w.outlet settings id j).1.2.segmenter :=
  c.drain_inherited Segmenter.keeps_inherited w settings id j

namespace Presentation

variable {w : World} {s t : Presentation}

/-- Whether the segmenter of every track has a property. -/
def Each (P : Segmenter → Prop) (s : Presentation) : Prop :=
  ∀ id c, s.publisher.channels.find? id = some c → P c.segmenter

section
variable {P : Segmenter → Prop} (hP : Segmenter.Inherited fun s g => P s → P g)
  (hstart : ∀ kind plan, P (.start kind plan)) (hbitrate : ∀ s bitrate, P s → P (s.setBitrate bitrate))
include hP hstart hbitrate

theorem Move.each (h : Move w s t) (hs : s.Each P) : t.Each P := by
  intro id d hd
  rcases h.channel_inherited hP hd with ⟨c, hc, hk⟩ | ⟨c, bitrate, hc, he⟩ | ⟨kind, hk⟩
  · exact hk (hs id c hc)
  · rw [he]
    exact hbitrate _ _ (hs id c hc)
  · exact hk (hstart kind _)

omit hP hstart hbitrate in
theorem Relocated.each (h : Relocated s t) (hs : s.Each P) : t.Each P := by
  cases h with
  | refused => exact hs
  | failed => exact hs
  | done folder baseName seconds hnone =>
    intro id c hf
    cases hf.symm.trans (hnone id)

/-- **What the operations of a segmenter keep holds of every track after every run.** -/
theorem run_each (w : World) (settings : Settings) (ops : List Operation) : ((start settings).run w ops).Each P :=
  (run_kept (fun _ _ hm _ hs => hm.each hP hstart hbitrate hs) (fun _ _ hr hs => hr.each hs) (fun _ _ hf => by cases hf)
    ops).2

end

/-- Whether every track with an initialization segment or a configuration has an offset. -/
def Grounded (s : Presentation) : Prop := ∀ id c, s.publisher.channels.find? id = some c → c.segmenter.Grounded

theorem Move.grounded (h : Move w s t) (hs : s.Grounded) : t.Grounded :=
  h.each Segmenter.grounded_inherited Segmenter.grounded_start (fun _ _ h => h) hs

theorem run_grounded (w : World) (settings : Settings) (ops : List Operation) :
    ((start settings).run w ops).Grounded :=
  run_each Segmenter.grounded_inherited Segmenter.grounded_start (fun _ _ h => h) w settings ops

end Presentation
end Packager

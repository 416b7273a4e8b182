import Mathlib.Logic.Function.Basic
import Packager.Proofs.CycleOutcome
/-!
# Proofs.SharedOrigin — the instant that all tracks count from

The first cycle with a frame of a registered track fixes the origin; tracks that are there take it, and so does each one
that is added later.  A track whose first frame is older moves its own tick zero back to that frame.  The debut of a
track is the time stamp of the first frame that it accepted since it was added; clock, origin and debut fit together in
every state (`Clock.Aligned`), so tick zero of every track is known from origin and debut (`tracks_share_origin`).
-/
namespace Packager

/-! ## Clocks -/

namespace Clock

/-- Whether a clock has a debut as its offset and counts from an origin, or from its debut when that was earlier. -/
structure Aligned (c : Clock) (shared debut : Option Nanos) : Prop where
  offset : c.offset = debut
  origin : c.origin = shared.map fun o => debut.elim o (min o)
  /-- As long as there is no origin, there is no frame. -/
  idle : shared = none → debut = none

/-- **The first frame is the debut**, and later ones change nothing. -/
theorem Aligned.accept {c : Clock} {origin : Nanos} {debut : Option Nanos} (h : c.Aligned (some origin) debut)
    (pts : Nanos) : (c.accept pts).1.Aligned (some origin) (some (debut.getD pts)) := by
  obtain ⟨zero, expected, hc, hsame⟩ := c.accept_state pts
  cases hd : debut with
  | none =>
    have hoffset : c.offset = none := h.offset.trans hd
    have horigin : c.origin = some origin := by
      rw [h.origin, hd]
      rfl
    refine ⟨by rw [hc, hoffset], ?_, nofun⟩
    unfold Clock.accept
    simp only [hoffset, horigin, Option.map_some, Option.getD_none, Option.elim_some]
    rw [Nat.min_comm]
  | some first =>
    have hoffset : c.offset = some first := h.offset.trans hd
    refine ⟨by rw [hc, hoffset], ?_, nofun⟩
    rw [hc]
    show zero = _
    rw [hsame (by rw [hoffset]; rfl), h.origin, hd]
    rfl

/-- An origin that is fixed before the first frame is that of the clock. -/
theorem Aligned.setOrigin {c : Clock} {debut : Option Nanos} (h : c.Aligned none debut) (origin : Nanos) :
    (c.setOrigin origin).2.Aligned (some origin) debut := by
  have hdebut : debut = none := h.idle rfl
  have hoffset : c.offset = none := h.offset.trans hdebut
  have horigin : c.origin = none := h.origin
  have hset : (c.setOrigin origin).2 = { c with origin := some origin } := by
    unfold Clock.setOrigin
    rw [hoffset, horigin]
    rfl
  rw [hset, hdebut]
  exact ⟨hoffset, rfl, nofun⟩

/-- Tick zero stands for the origin, or for the debut when that was earlier. -/
theorem Aligned.zero? {c : Clock} {origin : Nanos} {debut : Option Nanos} : c.Aligned (some origin) debut →
    c.zero? = some (match debut with
      | none => origin
      | some first => if origin ≤ first then origin else first) := by
  intro h
  unfold Clock.zero?
  rw [h.origin]
  cases debut with
  | none => rfl
  | some first => exact congrArg some Nat.min_def

end Clock

/-! ## Segmenters -/

namespace Segmenter

/-- Whether a segmenter counts as another one of its kind: from the same first frame, and the same origin. -/
structure CountsAs (s g : Segmenter) : Prop where
  kind : g.kind = s.kind
  offset : g.assembly.clock.offset = s.assembly.clock.offset
  origin : g.assembly.clock.origin = s.assembly.clock.origin

namespace CountsAs

variable {s g t : Segmenter}

theorem refl (s : Segmenter) : s.CountsAs s := ⟨rfl, rfl, rfl⟩

theorem trans (h : s.CountsAs g) (h' : g.CountsAs t) : s.CountsAs t :=
  ⟨h'.kind.trans h.kind, h'.offset.trans h.offset, h'.origin.trans h.origin⟩

theorem aligned {origin debut : Option Nanos} (h : s.CountsAs g) (ha : s.assembly.clock.Aligned origin debut) :
    g.assembly.clock.Aligned origin debut := ⟨h.offset.trans ha.offset, h.origin.trans ha.origin, ha.idle⟩

theorem configure (h : s.configure = .ok g) : s.CountsAs g := by
  obtain ⟨ticks, phase, rfl⟩ := configure_state h
  exact ⟨rfl, rfl, rfl⟩

theorem describe (s : Segmenter) (slot : Slot) : s.CountsAs (s.describe slot).state := by
  obtain ⟨metadata, described, hstate⟩ := s.describe_state slot
  rw [hstate]
  exact ⟨rfl, rfl, rfl⟩

theorem append (s : Segmenter) (slot : Slot) : s.CountsAs (s.append slot).state := by
  cases hc : s.assembly.configured with
  | false =>
    rw [append_of_unconfigured hc]
    exact .refl s
  | true =>
    obtain ⟨hkind, f, n, phase, hstate⟩ := append_moved hc slot
    exact ⟨hkind, by rw [hstate], by rw [hstate]⟩

theorem absorb (s : Segmenter) : s.CountsAs s.absorb := by
  obtain ⟨hkind, f, n, phase, hstate⟩ := s.absorb_moved
  exact ⟨hkind, by rw [hstate], by rw [hstate]⟩

theorem finish (s : Segmenter) (slot : Slot) : s.CountsAs (s.finish slot).state := by
  rcases s.finish_cases slot with ⟨-, he⟩ | ⟨-, -, -, phase, hstate⟩
  · rw [he]
    exact .refl s
  · obtain ⟨f, n, phase', hclose, -⟩ := s.absorb.assembly.close_state slot
    rw [hstate, hclose]
    obtain ⟨hkind, hoffset, horigin⟩ := absorb s
    exact ⟨hkind, hoffset, horigin⟩

theorem flush (s : Segmenter) : s.CountsAs s.flush := by
  obtain ⟨a, stream⟩ := s
  cases stream <;> exact ⟨rfl, rfl, rfl⟩

end CountsAs

/-- **A frame is accepted** when it is of the segmenter's kind and makes a sample; any other leaves the count as it was. -/
theorem manage_counts {s g : Segmenter} {frame : Frame} {isNew : Bool} (h : s.manage frame = .ok (isNew, g)) :
    s.kind = frame.kind ∧ g.kind = s.kind ∧
    ((frame.sample? = none ∧ s.CountsAs g) ∨
      (frame.sample?.isSome = true ∧ ∃ expected, g.assembly.clock =
        { (s.assembly.clock.accept frame.pts).1 with expected := expected })) := by
  rcases manage_cases h with ⟨a, v, f, b, w, rfl, rfl, hm, rfl⟩ | ⟨a, v, f, b, w, rfl, rfl, hm, rfl⟩
  · obtain ⟨data, phase, hd, rfl, -⟩ := AudioStream.manage_ok hm
    exact ⟨rfl, rfl, .inr ⟨by rw [hd]; rfl, _, rfl⟩⟩
  · rcases VideoStream.manage_taken hm with ⟨hd, rfl, -⟩ | ⟨data, isSync, phase, hd, rfl, -⟩
    · exact ⟨rfl, rfl, .inl ⟨hd, rfl, rfl, rfl⟩⟩
    · exact ⟨rfl, rfl, .inr ⟨by rw [hd]; rfl, _, rfl⟩⟩

/-- A frame of the segmenter's kind that makes a sample is taken. -/
theorem manage_of_sample {s : Segmenter} {frame : Frame} (hk : s.kind = frame.kind) (hs : frame.sample?.isSome = true) :
    ∃ isNew g, s.manage frame = .ok (isNew, g) := by
  obtain ⟨a, stream⟩ := s
  cases stream with
  | audio v =>
    cases frame with
    | video f => cases hk
    | audio f =>
      unfold Frame.sample? at hs
      simp only at hs
      by_cases hd : f.data.isEmpty = true
      · simp [hd] at hs
      · cases hh : Adts.header? f.data with
        | error fault => simp [hd, hh] at hs
        | ok header =>
          rw [manage_audio]
          unfold AudioStream.manage
          rw [if_neg hd, hh]
          exact ⟨_, _, rfl⟩
  | video v =>
    cases frame with
    | audio f => cases hk
    | video f =>
      have hcoded : (AnnexB.split f.data).any VideoStream.isCoded = true := by
        unfold Frame.sample? at hs
        simp only at hs
        split at hs
        · assumption
        · cases hs
      have hn : (AnnexB.split f.data).isEmpty = false := by
        cases hsplit : AnnexB.split f.data with
        | nil =>
          rw [hsplit] at hcoded
          cases hcoded
        | cons nal nals => rfl
      rw [manage_video]
      unfold VideoStream.manage
      simp only [hn, hcoded, Bool.false_eq_true, if_false, Bool.not_true]
      exact ⟨_, _, rfl⟩

end Segmenter

/-! ## Channels -/

namespace Channel

variable (w : World) (settings : Settings) (id : TrackId)

/-- **Feeding a track** takes the frame; what follows does not touch the count. -/
theorem feed_cases (c : Channel) (frame : Frame) (j : Journal) :
    let d := (c.feed w.outlet settings id frame j).1.channel
    (∃ failure, c.segmenter.manage frame = .error failure ∧ d = c) ∨
    ∃ isNew g, c.segmenter.manage frame = .ok (isNew, g) ∧ g.CountsAs d.segmenter := by
  have hcourse := feed_course w settings id c frame j
  generalize c.feed w.outlet settings id frame j = out at hcourse ⊢
  have hdescribed : ∀ {g g' : Segmenter} {result : Except Failure Bool} {state : Segmenter} {slot : Slot},
      g.configure = .ok g' → g'.describe (.empty settings.segment.maxBytes) = ⟨result, state, slot⟩ →
      g.CountsAs state := by
    intro g g' result state slot hc hh
    have hd := Segmenter.CountsAs.describe g' (.empty settings.segment.maxBytes)
    rw [hh] at hd
    exact (Segmenter.CountsAs.configure hc).trans hd
  cases hcourse with
  | @refused failure hm => exact .inl ⟨failure, hm, rfl⟩
  | @waiting _ g _ hm => exact .inr ⟨_, g, hm, .refl g⟩
  | rejected hm hc hh => exact .inr ⟨_, _, hm, hdescribed hc hh⟩
  | @appended _ _ _ state _ hm hc hh => exact .inr ⟨_, _, hm, (hdescribed hc hh).trans (.append state c.slot)⟩
  | @failed _ _ _ state _ _ hm hc hh => exact .inr ⟨_, _, hm, (hdescribed hc hh).trans (.flush state)⟩
  | @made _ _ _ state _ hm hc hh => exact .inr ⟨_, _, hm, (hdescribed hc hh).trans (.append state c.slot)⟩

/-- **Feeding a track keeps its clock aligned**; the debut is that of a frame that is accepted. -/
theorem feed_aligned {c : Channel} {origin : Nanos} {debut : Option Nanos}
    (h : c.segmenter.assembly.clock.Aligned (some origin) debut) (frame : Frame) (j : Journal) :
    let d := (c.feed w.outlet settings id frame j).1.channel
    d.kind = c.kind ∧ d.segmenter.assembly.clock.Aligned (some origin)
      (if c.kind = frame.kind ∧ frame.sample?.isSome = true then some (debut.getD frame.pts) else debut) := by
  intro d
  have hcases : (∃ failure, c.segmenter.manage frame = .error failure ∧ d = c) ∨
      ∃ isNew g, c.segmenter.manage frame = .ok (isNew, g) ∧ g.CountsAs d.segmenter := c.feed_cases w settings id frame j
  rcases hcases with ⟨failure, hm, hd⟩ | ⟨isNew, g, hm, hcounts⟩
  · rw [hd]
    refine ⟨rfl, ?_⟩
    have hrefused : ¬(c.kind = frame.kind ∧ frame.sample?.isSome = true) := fun ⟨hk, hs⟩ => by
      obtain ⟨isNew, g, hok⟩ := Segmenter.manage_of_sample hk hs
      rw [hm] at hok
      cases hok
    rw [if_neg hrefused]
    exact h
  · obtain ⟨hk, hg, hsample⟩ := Segmenter.manage_counts hm
    refine ⟨hcounts.kind.trans hg, hcounts.aligned ?_⟩
    rcases hsample with ⟨hnone, hsame⟩ | ⟨hsome, expected, hclock⟩
    · rw [if_neg (by rw [hnone]; exact fun hf => Bool.false_ne_true hf.2)]
      exact hsame.aligned h
    · obtain ⟨hoffset, horigin, hidle⟩ := h.accept frame.pts
      rw [if_pos ⟨hk, hsome⟩, hclock]
      exact ⟨hoffset, horigin, hidle⟩

theorem drain_counts (c : Channel) (j : Journal) :
    c.segmenter.CountsAs (c.drain w.outlet settings id j).1.2.segmenter := by
  rw [drain_apply]
  obtain ⟨-, hheld, -⟩ := publishIf_closes w settings id c.isHolding c j
  generalize c.publishIf w settings id c.isHolding j = held at hheld ⊢
  obtain ⟨-, hlast, -⟩ := publishIf_closes w settings id held.1.2.finish.1 held.1.2.finish.2 held.2
  dsimp only at hlast ⊢
  rw [hlast, ← hheld]
  exact .finish held.1.2.segmenter held.1.2.slot

end Channel

/-! ## Publishers -/

/-- The time stamp of the first frame that each track accepted since it was added. -/
abbrev Debuts := TrackId → Option Nanos

/-- The debuts after a frame: it counts when it is of the kind of its track and makes a sample. -/
def Debuts.take (kinds : TrackId → Option Kind) (debuts : Debuts) (entry : TrackId × Frame) : Debuts :=
  if kinds entry.1 = some entry.2.kind ∧ entry.2.sample?.isSome = true then
    Function.update debuts entry.1 (some ((debuts entry.1).getD entry.2.pts))
  else debuts

theorem Debuts.take_self {kinds : TrackId → Option Kind} {id : TrackId} {kind : Kind} (h : kinds id = some kind)
    (debuts : Debuts) (frame : Frame) : debuts.take kinds (id, frame) id =
      if kind = frame.kind ∧ frame.sample?.isSome = true then some ((debuts id).getD frame.pts) else debuts id := by
  unfold take
  by_cases hk : kind = frame.kind ∧ frame.sample?.isSome = true
  · rw [if_pos hk, if_pos ⟨h.trans (congrArg some hk.1), hk.2⟩]
    exact Function.update_self ..
  · rw [if_neg hk, if_neg fun hf => hk ⟨Option.some.inj (h.symm.trans hf.1), hf.2⟩]

theorem Debuts.take_of_ne {id id' : TrackId} (h : id' ≠ id) (kinds : TrackId → Option Kind) (debuts : Debuts)
    (frame : Frame) : debuts.take kinds (id, frame) id' = debuts id' := by
  unfold take
  split
  · exact Function.update_of_ne h ..
  · rfl

theorem Debuts.take_of_none {kinds : TrackId → Option Kind} {id : TrackId} (h : kinds id = none) (debuts : Debuts)
    (frame : Frame) : debuts.take kinds (id, frame) = debuts := by
  unfold take
  rw [h]
  exact if_neg fun hf => nomatch hf.1

namespace Publisher

variable {w : World} {p q : Publisher} {j : Journal} {debuts : Debuts}

/-- The kind of a track. -/
def kind? (p : Publisher) (id : TrackId) : Option Kind := (p.channels.find? id).map Channel.kind

/-- Whether the clocks of all tracks fit the origin and the debuts. -/
def Aligned (p : Publisher) (debuts : Debuts) : Prop :=
  ∀ id c, p.channels.find? id = some c → c.segmenter.assembly.clock.Aligned p.origin (debuts id)

/-- Whether every track of a publisher was there before, and counts as it did. -/
structure Inherits (p q : Publisher) : Prop where
  origin : q.origin = p.origin
  tracks : ∀ id d, q.channels.find? id = some d →
    ∃ c, p.channels.find? id = some c ∧ c.segmenter.CountsAs d.segmenter

namespace Inherits

theorem refl (p : Publisher) : p.Inherits p := ⟨rfl, fun _ d hd => ⟨d, hd, .refl d.segmenter⟩⟩

theorem trans {r : Publisher} (h : p.Inherits q) (h' : q.Inherits r) : p.Inherits r := by
  refine ⟨h'.origin.trans h.origin, fun id e he => ?_⟩
  obtain ⟨d, hd, hde⟩ := h'.tracks id e he
  obtain ⟨c, hc, hcd⟩ := h.tracks id d hd
  exact ⟨c, hc, hcd.trans hde⟩

theorem setChannel (h : p.Inherits q) {id : TrackId} {c d : Channel} (hc : p.channels.find? id = some c)
    (hd : c.segmenter.CountsAs d.segmenter) : p.Inherits (q.setChannel id d) := by
  refine ⟨h.origin, fun id' e he => ?_⟩
  obtain ⟨rfl, rfl⟩ | ⟨-, he⟩ := find?_setChannel_cases he
  · exact ⟨c, hc, hd⟩
  · exact h.tracks id' e he

theorem gated (h : p.Inherits q) (gate : Gate) : p.Inherits { q with gate } := ⟨h.origin, h.tracks⟩

theorem aligned (h : p.Inherits q) (ha : p.Aligned debuts) : q.Aligned debuts := by
  intro id d hd
  obtain ⟨c, hc, hcd⟩ := h.tracks id d hd
  rw [h.origin]
  exact hcd.aligned (ha id c hc)

end Inherits

/-! ### Operations that take no frame -/

theorem removeTrack_inherits (id : TrackId) : p.Inherits (p.removeTrack w.outlet id j).1.2 := by
  unfold removeTrack
  cases hc : p.channels.find? id with
  | none => exact .refl p
  | some c => exact ⟨rfl, fun id' d hd => ⟨d, (find?_erase_cases hd).2, .refl d.segmenter⟩⟩

theorem shutdown_inherits : p.Inherits (p.shutdown w.outlet j).1.2 := by
  let inv : List TrackId → Publisher → Journal → Prop := fun _ q _ => p.Inherits q
  exact StateM.foldlM_invariant (f := fun q id => Prod.snd <$> q.removeTrack w.outlet id) inv
    (fun _ _ _ _ h => h.trans (removeTrack_inherits _)) p.channels.keys p j (.refl p)

theorem setBitrate_inherits (id : TrackId) (kilobits : Nat) :
    p.Inherits (p.setBitrate w.outlet id kilobits j).1.2 := by
  unfold setBitrate
  cases hc : p.channels.find? id with
  | none => exact .refl p
  | some c => exact (Inherits.refl p).setChannel hc ⟨rfl, rfl, rfl⟩

theorem drainAudio_inherits (hsorted : p.channels.Sorted) : p.Inherits (p.drainAudio w.outlet j).1.2 := by
  let inv : List (TrackId × Channel) → Nat × Publisher → Journal → Prop := fun rest acc _ =>
    p.Inherits acc.2 ∧ ∀ e ∈ rest, p.channels.find? e.1 = some e.2
  have hstart : inv (p.channels.entries.filter (·.2.kind = .audio)) (0, { p with gate := p.gate.forceAudioOnly }) j :=
    ⟨(Inherits.refl p).gated _, fun e he => (SortedMap.mem_entries hsorted).1 (List.mem_filter.1 he).1⟩
  have hend := StateM.foldlM_invariant (f := drainAudio.drainOne w.outlet) inv (by
    rintro ⟨id, c⟩ rest ⟨count, q⟩ k ⟨hinherits, hpresent⟩
    exact ⟨hinherits.setChannel (hpresent (id, c) List.mem_cons_self) (c.drain_counts w q.settings id k),
      fun e he => hpresent e (List.mem_cons_of_mem _ he)⟩) _ _ j hstart
  rw [drainAudio_publisher]
  exact hend.1

theorem releaseAll_inherits {entries : List (TrackId × Channel)} (hpresent : ∀ e ∈ entries, p.channels.find? e.1 = some e.2)
    (report : CycleReport) : p.Inherits (entries.foldlM (release w.outlet) (report, p) j).1.2 := by
  let inv : List (TrackId × Channel) → CycleReport × Publisher → Journal → Prop := fun rest acc _ =>
    p.Inherits acc.2 ∧ ∀ e ∈ rest, p.channels.find? e.1 = some e.2
  refine (StateM.foldlM_invariant (f := release w.outlet) inv ?_ entries (report, p) j ⟨.refl p, hpresent⟩).1
  rintro ⟨id, c⟩ rest ⟨report, q⟩ k ⟨hinherits, hpresent⟩
  refine ⟨?_, fun e he => hpresent e (List.mem_cons_of_mem _ he)⟩
  have hc := hpresent (id, c) List.mem_cons_self
  unfold release
  dsimp only
  cases q.window? id c with
  | none => exact hinherits
  | some window =>
    dsimp only
    generalize q.gate.judge window = judged
    obtain ⟨verdict, gate⟩ := judged
    cases verdict with
    | hold => exact hinherits.gated gate
    | discard => exact (hinherits.gated gate).setChannel hc (.refl c.segmenter)
    | publish =>
      have hfreed := (Channel.publish_closes w q.settings id c k).2
      simp only [StateM.bind_apply, StateM.pure_apply, hfreed]
      exact (hinherits.gated gate).setChannel hc (.refl c.segmenter)

/-! ### Adding tracks and fixing the origin -/

/-- **A new track has no debut**, and takes the origin that is there. -/
theorem addTrack_aligned (id : TrackId) (kind : Kind) (h : p.Aligned debuts) :
    (p.addTrack w.outlet id kind j).1.2.Aligned
      (if p.channels.contains id then debuts else Function.update debuts id none) := by
  unfold addTrack
  by_cases hc : p.channels.contains id = true
  · rw [if_pos hc, if_pos hc]
    exact h
  · rw [if_neg hc, if_neg hc]
    simp only [StateM.bind_apply, StateM.pure_apply]
    intro id' d hd
    obtain ⟨rfl, rfl⟩ | ⟨hne, hd⟩ := find?_setChannel_cases (p := p) hd
    · rw [Function.update_self]
      show Clock.Aligned _ p.origin none
      cases p.origin with
      | none => exact ⟨rfl, rfl, fun _ => rfl⟩
      | some origin => exact ⟨rfl, rfl, nofun⟩
    · rw [Function.update_of_ne (Ne.symm hne)]
      exact h id' d hd

/-- Fixing the origin sets that of all tracks, or changes nothing. -/
theorem fixOrigin_cases (p : Publisher) (frames : List (TrackId × Frame)) : p.fixOrigin frames = p ∨
    p.origin = none ∧ ∃ origin, p.fixOrigin frames =
      { p with origin := some origin, channels := p.channels.mapValues (·.setOrigin origin) } := by
  unfold fixOrigin
  split
  · exact .inr ⟨‹_›, _, rfl⟩
  · exact .inl rfl

/-- **A frame of a track fixes the origin.** -/
theorem fixOrigin_isSome {frames : List (TrackId × Frame)} {e : TrackId × Frame} (he : e ∈ frames)
    (hc : p.channels.contains e.1 = true) : (p.fixOrigin frames).origin.isSome = true := by
  cases horigin : p.origin with
  | some origin =>
    unfold fixOrigin
    rw [horigin]
    exact Option.isSome_iff_exists.2 ⟨origin, horigin⟩
  | none =>
    obtain ⟨origin, hearliest⟩ : ∃ origin, p.earliest frames = some origin := by
      refine Option.ne_none_iff_exists'.1 fun hnone => ?_
      unfold earliest at hnone
      rw [List.min?_eq_none_iff, List.map_eq_nil_iff, List.filter_eq_nil_iff] at hnone
      exact hnone e he hc
    unfold fixOrigin
    rw [horigin, hearliest]
    rfl

/-- **The origin is fixed before any frame is accepted.** -/
theorem fixOrigin_aligned (frames : List (TrackId × Frame)) (h : p.Aligned debuts) :
    (p.fixOrigin frames).Aligned debuts ∧ (p.fixOrigin frames).kind? = p.kind? := by
  rcases p.fixOrigin_cases frames with he | ⟨hnone, origin, he⟩
  · rw [he]
    exact ⟨h, rfl⟩
  · rw [he]
    refine ⟨fun id d hd => ?_, ?_⟩
    · rw [SortedMap.find?_mapValues, Option.map_eq_some_iff] at hd
      obtain ⟨c, hc, rfl⟩ := hd
      have hclock := h id c hc
      rw [hnone] at hclock
      exact hclock.setOrigin origin
    · funext id
      unfold kind?
      rw [SortedMap.find?_mapValues, Option.map_map]
      rfl

/-! ### Cycles -/

/-- **Feeding one frame** notes the debut of its track, when there is an origin. -/
theorem feed_aligned {acc : CycleReport × Publisher} (entry : TrackId × Frame) (h : acc.2.Aligned debuts)
    (ho : acc.2.kind? entry.1 ≠ none → acc.2.origin.isSome = true) :
    let q := (feed w.outlet acc entry j).1.2
    q.Aligned (debuts.take acc.2.kind? entry) ∧ q.kind? = acc.2.kind? ∧ q.origin = acc.2.origin := by
  obtain ⟨report, p⟩ := acc
  obtain ⟨id, frame⟩ := entry
  unfold feed
  dsimp only at h ho ⊢
  cases hc : p.channels.find? id with
  | none =>
    have hnone : p.kind? id = none := by rw [kind?, hc, Option.map_none]
    rw [Debuts.take_of_none hnone]
    exact ⟨h, rfl, rfl⟩
  | some c =>
    have hkind : p.kind? id = some c.kind := by rw [kind?, hc, Option.map_some]
    obtain ⟨origin, horigin⟩ := Option.isSome_iff_exists.1 (ho (by rw [hkind]; exact nofun))
    have hclock := h id c hc
    rw [horigin] at hclock
    obtain ⟨hk, hfed⟩ := c.feed_aligned w p.settings id hclock frame j
    simp only [StateM.bind_apply, StateM.pure_apply]
    generalize (c.feed w.outlet p.settings id frame j).1.channel = d at hk hfed ⊢
    refine ⟨fun id' e he => ?_, ?_, rfl⟩
    · show Clock.Aligned _ p.origin _
      obtain ⟨rfl, rfl⟩ | ⟨hne, he⟩ := find?_setChannel_cases he
      · rw [Debuts.take_self hkind, horigin]
        exact hfed
      · rw [Debuts.take_of_ne (Ne.symm hne)]
        exact h id' e he
    · funext id'
      unfold kind?
      rw [find?_setChannel]
      by_cases he : id = id'
      · subst he
        rw [if_pos rfl, hc, Option.map_some, Option.map_some, hk]
      · rw [if_neg he]

/-- **The first half of a cycle** notes the debuts of its frames. -/
theorem intake_aligned (frames : List (TrackId × Frame)) (h : p.Aligned debuts) :
    (p.intake w.outlet frames j).1.2.Aligned (frames.foldl (Debuts.take p.kind?) debuts) := by
  -- the frames to come lead from the debuts so far to those of the whole cycle
  let inv : List (TrackId × Frame) → CycleReport × Publisher → Journal → Prop := fun rest acc _ =>
    ∃ before, acc.2.Aligned before ∧
      rest.foldl (Debuts.take p.kind?) before = frames.foldl (Debuts.take p.kind?) debuts ∧
      acc.2.kind? = p.kind? ∧ ∀ e ∈ rest, p.kind? e.1 ≠ none → acc.2.origin.isSome = true
  obtain ⟨horigin, hkind⟩ := fixOrigin_aligned frames h
  have hsome : ∀ e ∈ frames, p.kind? e.1 ≠ none → (p.fixOrigin frames).origin.isSome = true := fun e he hk =>
    fixOrigin_isSome he (by simpa [kind?, SortedMap.contains, Option.isSome_iff_ne_none] using hk)
  have hstart : inv frames (.empty, p.fixOrigin frames) j := ⟨debuts, horigin, rfl, hkind, hsome⟩
  obtain ⟨after, hafter, heq, -⟩ := StateM.foldlM_invariant (f := feed w.outlet) inv (by
    rintro entry rest acc k ⟨before, haligned, hfold, hkind, hsome⟩
    obtain ⟨haligned', hkind', horigin'⟩ := feed_aligned (w := w) (j := k) entry haligned
      (by rw [hkind]; exact hsome entry List.mem_cons_self)
    refine ⟨before.take p.kind? entry, by rw [← hkind]; exact haligned', hfold, hkind'.trans hkind, fun e he hk => ?_⟩
    rw [horigin']
    exact hsome e (List.mem_cons_of_mem _ he) hk) frames _ j hstart
  have heq : after = frames.foldl (Debuts.take p.kind?) debuts := heq
  rw [← heq]
  exact hafter

theorem cycle_aligned (frames : List (TrackId × Frame)) (h : p.Aligned debuts) (hsound : p.Sound j) :
    (p.cycle w.outlet frames j).1.2.Aligned (frames.foldl (Debuts.take p.kind?) debuts) := by
  have hsorted : (p.intake w.outlet frames j).1.2.channels.Sorted :=
    (feedAll_sound frames .empty (fixOrigin_sound frames hsound).1).1.sorted
  rw [(cycle_eq (w := w) (p := p) (j := j) frames).1]
  have hpresent := (current_ready hsorted).1.present
  exact (releaseAll_inherits hpresent _).aligned (intake_aligned frames h)

/-- **The window of a segment starts where the segment does**, in nanoseconds. -/
theorem Aligned.window_start (h : p.Aligned debuts) {id : TrackId} {c : Channel} (hc : p.channels.find? id = some c)
    {window : Window} (hw : p.window? id c = some window) :
    window.start = ticksToNanos c.slot.timestamp c.segmenter.assembly.clock.timeBase := by
  have hclock := h id c hc
  unfold window? at hw
  rw [Option.map_eq_some_iff] at hw
  obtain ⟨tickZero, hzero, rfl⟩ := hw
  show tickZero - p.origin.getD tickZero + _ = _
  have hle : tickZero ≤ p.origin.getD tickZero := by
    cases horigin : p.origin with
    | none => exact Nat.le_refl tickZero
    | some origin =>
      rw [horigin] at hclock
      rw [hclock.zero?] at hzero
      cases hzero
      show (match debuts id with | none => origin | some first => if origin ≤ first then origin else first) ≤ origin
      cases debuts id with
      | none => exact Nat.le_refl origin
      | some first =>
        dsimp only
        split
        · exact Nat.le_refl origin
        · exact Nat.le_of_not_le ‹_›
  rw [Nat.sub_eq_zero_of_le hle, Nat.zero_add]

end Publisher

/-! ## Runs -/

/-- The debuts after an operation. -/
def Operation.debuts (p : Publisher) (debuts : Debuts) : Operation → Debuts
  | .addTrack id _ => if p.channels.contains id then debuts else Function.update debuts id none
  | .cycle frames => frames.foldl (Debuts.take p.kind?) debuts
  | .removeTrack _ | .setBitrate _ _ | .drainAudio | .configure _ _ _ | .shutdown => debuts

namespace Presentation

/-- The debuts after a run. -/
def debuts (w : World) : Presentation → Debuts → List Operation → Debuts
  | _, before, [] => before
  | s, before, op :: ops => debuts w (s.apply w op) (op.debuts s.publisher before) ops

/-- **Every operation keeps the clocks of all tracks aligned.** -/
theorem apply_aligned (w : World) {s : Presentation} {before : Debuts} (hsound : s.publisher.Sound s.journal)
    (h : s.publisher.Aligned before) (op : Operation) :
    (s.apply w op).publisher.Aligned (op.debuts s.publisher before) := by
  cases op with
  | addTrack id kind => exact Publisher.addTrack_aligned (w := w) (j := s.journal) id kind h
  | removeTrack id => exact (Publisher.removeTrack_inherits (w := w) (j := s.journal) id).aligned h
  | cycle frames => exact Publisher.cycle_aligned (w := w) frames h hsound
  | setBitrate id kilobits => exact (Publisher.setBitrate_inherits (w := w) (j := s.journal) id kilobits).aligned h
  | drainAudio => exact (Publisher.drainAudio_inherits (w := w) (j := s.journal) hsound.sorted).aligned h
  | shutdown => exact (Publisher.shutdown_inherits (w := w) (j := s.journal)).aligned h
  | configure folder baseName seconds =>
    have hrelocated := Publisher.configure_relocated (w := w) (p := s.publisher) (j := s.journal) folder baseName seconds
    show (s.publisher.configure w.outlet folder baseName seconds s.journal).1.2.Aligned before
    generalize s.publisher.configure w.outlet folder baseName seconds s.journal = out at hrelocated
    obtain ⟨⟨result, q⟩, k⟩ := out
    cases hrelocated with
    | refused => exact h
    | failed => exact h
    | done folder baseName seconds hnone =>
      intro id c hc
      cases hc.symm.trans (hnone id)

theorem run_aligned (w : World) : ∀ (ops : List Operation) (s : Presentation) (before : Debuts),
    s.publisher.Sound s.journal → s.publisher.Aligned before →
    (s.run w ops).publisher.Aligned (s.debuts w before ops)
  | [], _, _, _, h => h
  | op :: ops, s, _, hsound, h =>
    run_aligned w ops (s.apply w op) _ (apply_sound w s op hsound).1 (apply_aligned w hsound h op)

/-- **All tracks share one origin.**  The clock of a track notes its debut.  As long as there is no origin, no track has
accepted a frame.  Once there is one, tick zero of every track stands for it, whenever the track was added, unless the first
frame that the track accepted is older: then tick zero stands for that frame.  So tracks whose frames are no older count their ticks from the same instant, and
the window of a segment that waits when the frames of a cycle are taken starts at the segment's own start. -/
theorem tracks_share_origin (w : World) (settings : Settings) (ops : List Operation) :
    let s := (start settings).run w ops
    let debut := (start settings).debuts w (fun _ => none) ops
    (∀ id c, s.publisher.channels.find? id = some c → c.segmenter.assembly.clock.offset = debut id) ∧
    (s.publisher.origin = none → ∀ id c, s.publisher.channels.find? id = some c → debut id = none) ∧
    (∀ origin, s.publisher.origin = some origin → ∀ id c, s.publisher.channels.find? id = some c →
      c.segmenter.assembly.clock.zero? = some (match debut id with
        | none => origin
        | some first => if origin ≤ first then origin else first) ∧
      ((∀ first, debut id = some first → origin ≤ first) → ∀ pts, c.segmenter.assembly.clock.ticksAt pts =
        nanosToTicks (pts - origin) c.segmenter.assembly.clock.timeBase)) ∧
    ∀ frames, let fed := (s.publisher.intake w.outlet frames s.journal).1.2
      ∀ id c, fed.channels.find? id = some c → c.isHolding = true → ∃ window, fed.window? id c = some window ∧
        window.start = ticksToNanos c.slot.timestamp c.segmenter.assembly.clock.timeBase := by
  intro s debut
  have hsound : s.publisher.Sound s.journal := run_sound w settings ops
  have haligned : s.publisher.Aligned debut :=
    run_aligned w ops (start settings) _ (start_sound settings) fun id c hc => by cases hc
  refine ⟨fun id c hc => (haligned id c hc).offset, fun hnone id c hc => (haligned id c hc).idle hnone,
    fun origin horigin id c hc => ?_, fun frames => ?_⟩
  · have hclock := haligned id c hc
    rw [horigin] at hclock
    refine ⟨hclock.zero?, fun hyoung pts => ?_⟩
    have hzero : c.segmenter.assembly.clock.zero? = some origin := by
      rw [hclock.zero?]
      cases hd : debut id with
      | none => rfl
      | some first => exact congrArg some (if_pos (hyoung first hd))
    unfold Clock.ticksAt
    rw [hzero]
  · intro fed id c hc hh
    obtain ⟨hsound', hgrounded'⟩ := Publisher.intake_sound (w := w) frames hsound (run_grounded w settings ops)
    obtain ⟨window, hw⟩ := Publisher.window?_of_holding hsound' hgrounded' hc hh
    exact ⟨window, hw, (Publisher.intake_aligned frames haligned).window_start hc hw⟩

/-- A frame of an audio track that is half a second older than the first one of the other. -/
def olderFrame : Frame := .audio ⟨500000000, 48000, 2, 96000, [7]⟩

/-- Two audio tracks that both wait for video, and one without a frame. -/
def olderOperations : List Operation :=
  [.addTrack 4 .video, .addTrack 1 .audio, .cycle [(1, twoSeconds)], .addTrack 2 .audio, .addTrack 3 .audio,
    .cycle [(2, olderFrame)]]

theorem tracks_share_origin_older :
    let s := (start .default).run .obliging olderOperations
    let fed := (s.publisher.intake World.obliging.outlet [] s.journal).1.2
    s.publisher.origin = some 1000000000 ∧
    (∃ c, s.publisher.channels.find? 1 = some c ∧ c.segmenter.assembly.clock.zero? = some 1000000000) ∧
    (∃ c, s.publisher.channels.find? 2 = some c ∧ c.segmenter.assembly.clock.zero? = some 500000000) ∧
    (∃ c, s.publisher.channels.find? 3 = some c ∧ c.segmenter.assembly.clock.zero? = some 1000000000) ∧
    ∃ c window, fed.channels.find? 2 = some c ∧ fed.window? 2 c = some window ∧
      window.start = ticksToNanos c.slot.timestamp c.segmenter.assembly.clock.timeBase := by
  intro s fed
  obtain ⟨-, -, hshared, hwindow⟩ := tracks_share_origin .obliging .default olderOperations
  have horigin : s.publisher.origin = some 1000000000 := by decide +kernel
  have found : ∀ id ∈ [1, 2, 3], (s.publisher.channels.find? id).isSome = true := by decide +kernel
  have hfed : (fed.channels.find? 2).any Channel.isHolding = true := by decide +kernel
  obtain ⟨c, hc⟩ := Option.isSome_iff_exists.1 (found 1 (by decide))
  obtain ⟨d, hd⟩ := Option.isSome_iff_exists.1 (found 2 (by decide))
  obtain ⟨e, he⟩ := Option.isSome_iff_exists.1 (found 3 (by decide))
  obtain ⟨held, hheld, hh⟩ := (Option.any_eq_true _ _).1 hfed
  obtain ⟨window, hw, hstart⟩ := hwindow [] 2 held hheld hh
  refine ⟨horigin, ⟨c, hc, ?_⟩, ⟨d, hd, ?_⟩, ⟨e, he, ?_⟩, held, window, hheld, hw, hstart⟩
  · exact (hshared _ horigin 1 c hc).1.trans (by decide +kernel)
  · exact (hshared _ horigin 2 d hd).1.trans (by decide +kernel)
  · exact (hshared _ horigin 3 e he).1.trans (by decide +kernel)

end Presentation

end Packager

import Packager.Proofs.SteadyPictures
/-!
# Proofs.VideoTimeline — video samples lie where their frames arrived

With pictures that come at a steady pace every sample of a video fragment is decoded at the tick where its frame arrived,
and a fragment ends where the next one starts, though the durations are provisional, cuts are put off and the pictures
before the timing is known are replayed under a later frame duration (`placed_where_arrived`).  A track that is finished
before its timing is known has no frame duration: its samples are all decoded at the tick of the first.
-/
namespace Packager

/-! ## Runs -/

/-- The pictures of a history, each at the tick where it arrived. -/
def Moment.arrivals (history : List Moment) : List (Nat × Bytes) :=
  history.filterMap fun
    | .taken frame clock => frame.sample?.map fun sample => (clock.ticksAt frame.pts, sample.1)
    | _ => none

theorem Moment.arrivals_append (h k : List Moment) : arrivals (h ++ k) = arrivals h ++ arrivals k :=
  List.filterMap_append

/-- What is known of a video track between two calls, when `line` has arrived and the slots `placed` were filled. -/
structure Tracks (line : List (Nat × Bytes)) (placed : List Slot) (due : Due) (a : Assembly) (v : VideoStream) : Prop where
  steady : Steady a.clock.tolerance (line.map Prod.fst)
  last : v.lastTicks = (line.map Prod.fst).getLast?
  previous : v.previousTicks = (line.map Prod.fst).dropLast.getLast?
  early : a.configured = false → placed = [] ∧ a.fragment.isEmpty = true ∧ a.clock.frameTicks = 0
  late : a.configured = true →
    v.Known ∧ a.clock.frameTicks ∈ gaps (line.map Prod.fst) ∧ (due = .manage → a.pending = none)
  lies : VideoStream.Lies line placed a v (VideoStream.queue a v)

namespace Tracks

variable {line : List (Nat × Bytes)} {placed : List Slot} {due : Due} {a b : Assembly} {v w : VideoStream}

theorem last_gap (h : Tracks line placed due a v) {last previous : Nat} (hlast : v.lastTicks = some last)
    (hprevious : v.previousTicks = some previous) :
    previous < last ∧ last - previous ∈ gaps (line.map Prod.fst) := by
  rw [h.last] at hlast
  rw [h.previous] at hprevious
  obtain ⟨front, hfront⟩ := List.getLast?_eq_some_iff.1 hlast
  rw [hfront, List.dropLast_concat] at hprevious
  obtain ⟨front', rfl⟩ := List.getLast?_eq_some_iff.1 hprevious
  have hticks : line.map Prod.fst = front' ++ previous :: last :: [] := by rw [hfront, List.append_assoc]; rfl
  obtain ⟨hlt, -, -⟩ := h.steady.next hticks
  exact ⟨hlt, mem_gaps.2 ⟨front', previous, last, [], hticks, rfl⟩⟩

/-- Where there is a gap, there are two pictures. -/
theorem last_two (h : Tracks line placed due a v) {g : Nat} (hg : g ∈ gaps (line.map Prod.fst)) :
    ∃ last previous, v.lastTicks = some last ∧ v.previousTicks = some previous := by
  rw [h.last, h.previous]
  rcases List.eq_nil_or_concat (line.map Prod.fst) with he | ⟨front, last, he⟩ <;> rw [he] at hg ⊢
  · cases hg
  · rcases List.eq_nil_or_concat front with rfl | ⟨front, previous, rfl⟩
    · cases hg
    · exact ⟨last, previous, by simp⟩

/-- The pictures that wait when another one comes; only before the timing is known may the oldest be dropped. -/
theorem waits (h : Tracks line placed .manage a v) {cuts kept : List Cut}
    (ht : Tiled line placed a.fragment (VideoStream.queue a v) cuts kept)
    (hpreroll : w.preroll = match a.pending with
      | some q => if a.configured then v.preroll else v.preroll.drop (v.preroll.length + 1 - VideoStream.maxPreroll) ++ [q]
      | none => v.preroll) :
    cuts.flatMap Cut.samples ++ (a.fragment.timed ++ w.preroll.map Pending.arrival) <:+ line := by
  cases hc : a.configured with
  | true =>
    have hnone : a.pending = none := (h.late hc).2.2 rfl
    have hbehind := ht.behind
    unfold VideoStream.queue at hbehind
    rw [hnone] at hbehind hpreroll
    rw [Option.toList_none, List.append_nil] at hbehind
    rw [hpreroll]
    exact hbehind
  | false =>
    obtain ⟨-, hempty, -⟩ := h.early hc
    have hqueue : w.preroll <:+ VideoStream.queue a v := by
      rw [hpreroll, hc]
      unfold VideoStream.queue
      cases a.pending with
      | none => exact ⟨[], (List.append_nil v.preroll).symm⟩
      | some q =>
        obtain ⟨dropped, hdropped⟩ := List.drop_suffix (v.preroll.length + 1 - VideoStream.maxPreroll) v.preroll
        refine ⟨dropped, ?_⟩
        show dropped ++ (v.preroll.drop (v.preroll.length + 1 - VideoStream.maxPreroll) ++ [q]) = v.preroll ++ [q]
        rw [← List.append_assoc, hdropped]
    have hbehind := ht.behind
    rw [ht.cuts_eq_nil hempty, OpenFragment.timed_of_isEmpty hempty] at hbehind ⊢
    exact (hqueue.map Pending.arrival).trans hbehind

/-- **A frame that is taken** comes to the end of the line, and waits. -/
theorem manage {f : VideoFrame} {isNew : Bool} (h : Tracks line placed .manage a v)
    (hm : VideoStream.manage a v f = .ok (isNew, b, w)) {new : List (Nat × Bytes)}
    (hnew : new = ((Frame.video f).sample?.map fun sample => (b.clock.ticksAt f.pts, sample.1)).toList)
    (hs : Steady a.clock.tolerance ((line ++ new).map Prod.fst)) : Tracks (line ++ new) placed .configure b w := by
  rcases VideoStream.manage_taken hm with ⟨hnone, rfl, sps, pps, rfl, hknown⟩ |
    ⟨data, isSync, phase, hsample, rfl, hfollows, hpreroll⟩
  · rw [hnone, Option.map_none, Option.toList_none] at hnew
    rw [hnew, List.append_nil]
    refine ⟨h.steady, h.last, h.previous, h.early, fun hc => ?_, h.lies⟩
    obtain ⟨hk, hgap, -⟩ := h.late hc
    exact ⟨hknown hk, hgap, nofun⟩
  · obtain ⟨origin, expected, hclock, -⟩ := a.clock.accept_state f.pts
    generalize hticks : (a.clock.accept f.pts).1.ticksAt f.pts = ticks at hfollows hnew ⊢
    have hnew : new = [(ticks, data)] := by rw [hnew, hsample]; rfl
    subst hnew
    rw [List.map_append] at hs
    refine ⟨?_, ?_, ?_, fun hc => ?_, fun hc => ?_, ?_⟩
    · rw [hclock, List.map_append]
      exact hs
    · rw [hfollows.last, List.map_append]
      exact (List.getLast?_concat).symm
    · rw [hfollows.previous, h.last, List.map_append]
      exact congrArg List.getLast? (List.dropLast_concat).symm
    · rw [hclock]
      exact h.early hc
    · obtain ⟨hk, hgap, -⟩ := h.late hc
      rw [hclock, List.map_append]
      exact ⟨hfollows.known hk, mem_gaps_append hgap _, nofun⟩
    · obtain ⟨cuts, kept, htiled, hlast⟩ := h.lies
      obtain ⟨front, hfront⟩ := h.waits htiled hpreroll
      refine ⟨cuts, kept, ⟨⟨front, ?_⟩, htiled.chain, htiled.meets, htiled.sublist, htiled.shows, htiled.tallied⟩,
        fun hn => ?_⟩
      · rw [← hfront]
        simp [VideoStream.queue, Pending.arrival]
      · rw [hfollows.start]
        exact hlast hn

/-- **Once the timing is known it stays known**: it comes from the last gap. -/
theorem configure (h : Tracks line placed due a v) (hc : VideoStream.configure a v = .ok b) :
    Tracks line placed .append b v := by
  obtain ⟨hk, last, previous, hlast, hprevious, rfl⟩ := VideoStream.configure_ok hc
  obtain ⟨hlt, hmem⟩ := h.last_gap hlast hprevious
  rw [if_pos hlt]
  exact ⟨h.steady, h.last, h.previous, nofun, fun _ => ⟨hk, hmem, nofun⟩, h.lies⟩

theorem configure_again (h : Tracks line placed due a v) (hc : a.configured = true) {lack : Lack} :
    VideoStream.configure a v ≠ .error lack := by
  obtain ⟨hk, hg, -⟩ := h.late hc
  obtain ⟨last, previous, hlast, hprevious⟩ := h.last_two hg
  rw [VideoStream.configure_of_known a hk hlast hprevious (h.last_gap hlast hprevious).1]
  nofun

/-- **Appending cuts the line further**, and leaves nothing waiting. -/
theorem append (h : Tracks line placed due a v) (hc : a.configured = true) (slot : Slot) :
    Tracks line (placed ++ slot.fills (VideoStream.append a v slot).slot) .manage (VideoStream.append a v slot).state.1
      (VideoStream.append a v slot).state.2 := by
  obtain ⟨hk, hgap, -⟩ := h.late hc
  have hlies : VideoStream.Lies line (placed ++ slot.fills (VideoStream.append a v slot).slot)
      (VideoStream.append a v slot).state.1 (VideoStream.append a v slot).state.2 [] :=
    VideoStream.appendAll_lies (VideoStream.queue a v)
      ⟨.ok false, ({ a with pending := none }, { v with preroll := [] }), slot⟩ placed ⟨h.steady, hgap⟩ h.lies
  obtain ⟨⟨f, n, phase, hstate⟩, hpreroll⟩ := VideoStream.append_moved a v slot
  obtain ⟨start, hstream⟩ : ∃ start, (VideoStream.append a v slot).state.2 =
      { v with preroll := [], lastStart := start } := VideoStream.appendAll_stream (VideoStream.queue a v) _
  have hqueue : VideoStream.queue (VideoStream.append a v slot).state.1 (VideoStream.append a v slot).state.2 = [] := by
    unfold VideoStream.queue
    rw [hpreroll, hstate]
    rfl
  rw [← hqueue] at hlies
  rw [hstate, hstream] at hlies ⊢
  refine ⟨h.steady, h.last, h.previous, fun hn => ?_, fun _ => ⟨hk, hgap, fun _ => rfl⟩, hlies⟩
  rw [hc] at hn
  cases hn

/-- **Finishing a track whose timing is known** cuts what is left where the next sample would be. -/
theorem finish (h : Tracks line placed due a v) (hc : a.configured = true) (slot : Slot) :
    ∃ cuts kept, cuts.flatMap Cut.samples <:+: line ∧ cuts.IsChain Cut.Meets ∧ kept.Sublist cuts ∧
      List.Forall₂ Slot.Shows (placed ++ slot.fills (Segmenter.finish ⟨a, .video v⟩ slot).slot) kept := by
  obtain ⟨-, hgap, -⟩ := h.late hc
  rcases Segmenter.finish_fills a v slot with he | ⟨hn, he⟩
  · obtain ⟨cuts, kept, htiled, -⟩ := h.lies
    rw [he, List.append_nil]
    exact ⟨cuts, kept, (List.prefix_append _ _).isInfix.trans htiled.behind.isInfix, htiled.chain, htiled.sublist,
      htiled.shows⟩
  · have hlies : VideoStream.Lies line placed (VideoStream.absorb a v).1 (VideoStream.absorb a v).2 [] :=
      VideoStream.absorbAll_lies (VideoStream.queue a v) { a with pending := none } { v with preroll := [] }
        ⟨h.steady, hgap⟩ h.lies
    rw [he]
    generalize VideoStream.absorb a v = left at hlies hn
    obtain ⟨cuts, kept, htiled, -⟩ := hlies
    obtain ⟨kept', hsublist, hshows⟩ := htiled.close slot hn
    refine ⟨cuts ++ [left.1.fragment.cut], kept', ?_, htiled.chain_cut, hsublist, hshows⟩
    have hbehind := htiled.behind
    rw [List.map_nil, List.append_nil] at hbehind
    rw [List.flatMap_append, List.flatMap_singleton]
    exact hbehind.isInfix

/-- **Finishing a track whose timing is not known** puts all that waits where the first of it arrived. -/
theorem finish_early (h : Tracks line placed due a v) (hc : a.configured = false) (slot : Slot) :
    ∀ t ∈ slot.fills (Segmenter.finish ⟨a, .video v⟩ slot).slot, ∃ group, group <:+ line ∧
      group.head?.map Prod.fst = some t.timestamp ∧ t.Carries (group.map fun x => (t.timestamp, x.2)) ∧ t.duration = 0 := by
  intro t ht
  obtain ⟨-, hempty, hz⟩ := h.early hc
  rcases Segmenter.finish_fills a v slot with he | ⟨hn, he⟩ <;> rw [he] at ht
  · cases ht
  · obtain ⟨pictures, hsuffix, hstacks⟩ : ∃ pictures, pictures <:+ VideoStream.queue a v ∧
        (VideoStream.absorb a v).1.fragment.Stacks pictures :=
      VideoStream.absorbAll_stacks (VideoStream.queue a v) { a with pending := none } { v with preroll := [] } [] hz
        (OpenFragment.stacks_of_isEmpty hempty)
    have hbehind : pictures.map Pending.arrival <:+ line := by
      obtain ⟨cuts, kept, htiled, -⟩ := h.lies
      have hbehind := htiled.behind
      rw [htiled.cuts_eq_nil hempty, OpenFragment.timed_of_isEmpty hempty] at hbehind
      exact (hsuffix.map Pending.arrival).trans hbehind
    generalize VideoStream.absorb a v = left at hstacks hn ht
    rcases Assembly.close_shows slot hstacks.tallied hn with he | ⟨u, he, ⟨hcarries, -⟩, hstart, hduration⟩ <;>
      rw [he] at ht
    · cases ht
    · cases List.mem_singleton.1 ht
      refine ⟨pictures.map Pending.arrival, hbehind, ?_, ?_, hduration.trans (hstacks.flat hn)⟩
      · cases pictures with
        | nil =>
          rw [hstacks.isEmpty_iff.2 rfl] at hn
          cases hn
        | cons first rest =>
          rw [hstart, hstacks.first first rfl]
          rfl
      · have hgroup : left.1.fragment.cut.samples = (pictures.map Pending.arrival).map fun x => (t.timestamp, x.2) := by
          rw [List.map_map, hstart]
          exact hstacks.timed
        rw [← hgroup]
        exact hcarries

end Tracks

namespace Session

/-- The slot each time that a call of a run filled it. -/
def fills : Session → List Call → List Slot
  | _, [] => []
  | s, call :: calls => s.slot.fills (s.apply call).slot ++ fills (s.apply call) calls

/-- What the caller of a video session promises: one frame after the other, at a steady pace, each configured and, once
the timing is known, appended. -/
def VideoInTurn (s : Session) : Call → Prop
  | .manage frame => s.due = .manage ∧
      Steady s.assembly.clock.tolerance ((Moment.arrivals (s.apply (.manage frame)).history).map Prod.fst)
  | .configure => s.due = .configure
  | .append => s.due = .append
  | .finish | .flush => False
  | .describe _ | .setOrigin _ | .setBitrate _ | .clear => True

instance (s : Session) : ∀ call, Decidable (s.VideoInTurn call)
  | .manage _ => inferInstanceAs (Decidable (_ ∧ _))
  | .configure | .append => inferInstanceAs (Decidable (_ = _))
  | .finish | .flush => inferInstanceAs (Decidable False)
  | .describe _ | .setOrigin _ | .setBitrate _ | .clear => inferInstanceAs (Decidable True)

/-- The invariant of a video session that has filled the slots `placed`. -/
def Tracked (placed : List Slot) (s : Session) : Prop :=
  ∃ a v, s.segmenter = ⟨a, .video v⟩ ∧ Tracks (Moment.arrivals s.history) placed s.due a v

theorem tracked_start (plan : SegmenterPlan) (capacity : Nat) : Tracked [] (start .video plan capacity) := by
  refine ⟨.start plan, .start, rfl, ⟨.nil, nofun⟩, rfl, rfl, fun _ => ⟨rfl, rfl, rfl⟩, nofun, [], [], ?_, nofun⟩
  exact ⟨List.suffix_refl [], .nil, nofun, .slnil, .nil, OpenFragment.tallied_of_isEmpty rfl⟩

theorem tracked_relabelled {placed : List Slot} {s : Session} {g : Segmenter} (h : s.Tracked placed)
    (hg : s.segmenter.Relabelled g) : Tracked placed { s with segmenter := g } := by
  obtain ⟨a, v, hs, ht⟩ := h
  obtain ⟨zero, metadata, bitrate, described, rfl⟩ := hg
  rw [hs]
  exact ⟨_, v, rfl, ht.steady, ht.last, ht.previous, ht.early, ht.late, ht.lies⟩

theorem arrivals_taken (frame : Frame) (clock : Clock) :
    Moment.arrivals (if frame.sample?.isSome then [.taken frame clock] else []) =
      (frame.sample?.map fun sample => (clock.ticksAt frame.pts, sample.1)).toList := by
  cases h : frame.sample? with
  | none => rfl
  | some sample => simp [Moment.arrivals, h]

theorem tracked_manage {placed : List Slot} {s : Session} {frame : Frame} (h : s.Tracked placed)
    (hr : s.VideoInTurn (.manage frame)) : Tracked placed (s.apply (.manage frame)) := by
  obtain ⟨hdue, hsteady⟩ := hr
  cases hm : s.segmenter.manage frame with
  | error e =>
    rw [apply_manage_error hm]
    exact h
  | ok r =>
    obtain ⟨isNew, g⟩ := r
    obtain ⟨a, v, hs, ht⟩ := h
    rw [apply_manage_ok hm, Moment.arrivals_append, arrivals_taken] at hsteady
    rw [apply_manage_ok hm]
    rcases Segmenter.manage_cases hm with ⟨a', v', f, b, w, ha, -⟩ | ⟨a', v', f, b, w, ha, rfl, hv, rfl⟩
    · rw [hs] at ha
      cases ha
    · rw [hs] at ha
      cases ha
      rw [assembly, hs] at hsteady
      rw [hdue] at ht
      refine ⟨b, w, rfl, ?_⟩
      show Tracks (Moment.arrivals (s.history ++ _)) placed .configure b w
      rw [Moment.arrivals_append, arrivals_taken]
      exact ht.manage hv rfl hsteady

theorem tracked_configure {placed : List Slot} {s : Session} (h : s.Tracked placed) :
    Tracked placed (s.apply .configure) := by
  obtain ⟨a, v, hs, ht⟩ := h
  have hvideo := Segmenter.configure_video a v
  rw [← hs] at hvideo
  cases hc : VideoStream.configure a v with
  | error lack =>
    rw [hc] at hvideo
    rw [apply_configure_error hvideo]
    refine ⟨a, v, hs, ht.steady, ht.last, ht.previous, ht.early, fun hconfigured => ?_, ht.lies⟩
    exact absurd hc (ht.configure_again hconfigured)
  | ok b =>
    rw [hc] at hvideo
    rw [apply_configure_ok hvideo]
    refine ⟨b, v, rfl, ?_⟩
    show Tracks (Moment.arrivals (s.history ++ _)) placed .append b v
    have hquiet : Moment.arrivals (if s.assembly.configured then [] else [.configured]) = [] := by
      split <;> rfl
    rw [Moment.arrivals_append, hquiet, List.append_nil]
    exact ht.configure hc

theorem tracked_append {placed : List Slot} {s : Session} (h : s.Tracked placed) :
    Tracked (placed ++ s.slot.fills (s.apply .append).slot) (s.apply .append) := by
  obtain ⟨a, v, hs, ht⟩ := h
  cases hc : a.configured with
  | false =>
    have hout : s.segmenter.append s.slot = ⟨.error .notConfigured, ⟨a, .video v⟩, s.slot⟩ := by
      rw [hs]
      simp [Segmenter.append, hc]
    have happly : s.apply .append =
        { s with segmenter := ⟨a, .video v⟩, placed := s.placed ++ [], due := .manage } := by
      rw [apply, after, hout]
      rfl
    rw [happly, Slot.fills_self, List.append_nil]
    refine ⟨a, v, rfl, ht.steady, ht.last, ht.previous, ht.early, fun hn => ?_, ht.lies⟩
    rw [hc] at hn
    cases hn
  | true =>
    have hout := Segmenter.append_video v s.slot hc
    rw [← hs] at hout
    refine ⟨(VideoStream.append a v s.slot).state.1, (VideoStream.append a v s.slot).state.2, ?_, ?_⟩
    · rw [apply, after, hout]
    · have hslot : (s.apply .append).slot = (VideoStream.append a v s.slot).slot := congrArg Outcome.slot hout
      rw [hslot]
      exact ht.append hc s.slot

/-- **Every call under the rule** keeps the invariant. -/
theorem tracked_apply {placed : List Slot} {s : Session} (h : s.Tracked placed) (call : Call) (hr : s.VideoInTurn call) :
    Tracked (placed ++ s.slot.fills (s.apply call).slot) (s.apply call) := by
  have quiet : ∀ {t : Session}, s.slot.fills t.slot = [] → t.Tracked placed →
      Tracked (placed ++ s.slot.fills t.slot) t := fun hn ht => by
    rw [hn, List.append_nil]
    exact ht
  cases call with
  | manage frame =>
    refine quiet ?_ (tracked_manage h hr)
    cases hm : s.segmenter.manage frame with
    | error e => rw [apply_manage_error hm, Slot.fills_self]
    | ok r => rw [apply_manage_ok hm, Slot.fills_self]
  | configure =>
    refine quiet ?_ (tracked_configure h)
    cases hc : s.segmenter.configure with
    | error lack => rw [apply_configure_error hc, Slot.fills_self]
    | ok g => rw [apply_configure_ok hc, Slot.fills_self]
  | describe header => exact quiet s.slot.fills_self (tracked_relabelled h (s.segmenter.relabelled_describe header))
  | append => exact tracked_append h
  | finish => exact hr.elim
  | flush => exact hr.elim
  | setOrigin origin => exact quiet s.slot.fills_self (tracked_relabelled h (s.segmenter.relabelled_setOrigin origin))
  | setBitrate bitrate => exact quiet s.slot.fills_self (tracked_relabelled h (s.segmenter.relabelled_setBitrate bitrate))
  | clear =>
    refine quiet ?_ h
    show s.slot.fills s.slot.clear = []
    simp [Slot.fills, Slot.clear, Slot.isEmpty]

theorem tracked_run : ∀ (calls : List Call) (s : Session) (placed : List Slot), Follows VideoInTurn s calls →
    s.Tracked placed → Tracked (placed ++ s.fills calls) (s.run calls)
  | [], s, placed, _, h => by
    rw [fills, List.append_nil]
    exact h
  | call :: calls, s, placed, hf, h => by
    rw [fills, ← List.append_assoc]
    exact tracked_run calls (s.apply call) _ hf.2 (tracked_apply h call hf.1)

/-- **Video samples lie where their frames arrived, end to end**, when pictures come at a steady pace and the timing
becomes known.  The fragments that were cut are a piece of the line of arrivals, each sample with the tick of its frame
as decode time; each fragment ends where the next one starts, and the slots that were filled hold those that were not
lost.  A track that is finished before its timing is known puts all its samples at the tick of the first. -/
theorem placed_where_arrived (plan : SegmenterPlan) (capacity : Nat) (calls : List Call)
    (h : Follows VideoInTurn (start .video plan capacity) calls) :
    let s := (start .video plan capacity).run calls
    let line := Moment.arrivals s.history
    let earlier := (start .video plan capacity).fills calls
    let last := s.slot.fills (s.apply .finish).slot
    (∃ origin, ∀ frame clock, Moment.taken frame clock ∈ s.history →
      clock.ticksAt frame.pts = nanosToTicks (frame.pts - origin) plan.timeBase) ∧
    (s.assembly.configured = true → ∃ cuts kept, cuts.flatMap Cut.samples <:+: line ∧ cuts.IsChain Cut.Meets ∧
      kept.Sublist cuts ∧ List.Forall₂ Slot.Shows (earlier ++ last) kept) ∧
    (s.assembly.configured = false → earlier = [] ∧ ∀ slot ∈ last, ∃ group, group <:+ line ∧
      group.head?.map Prod.fst = some slot.timestamp ∧ slot.Carries (group.map fun x => (slot.timestamp, x.2)) ∧
      slot.duration = 0) := by
  intro s line earlier last
  obtain ⟨a, v, hs, ht⟩ : s.Tracked earlier := tracked_run calls _ [] h (tracked_start plan capacity)
  have hlast : last = s.slot.fills (Segmenter.finish ⟨a, .video v⟩ s.slot).slot := by rw [← hs]; rfl
  have hconfigured : s.assembly.configured = a.configured := by rw [assembly, hs]
  rw [hlast, hconfigured]
  exact ⟨exists_origin .video plan capacity calls, fun hc => ht.finish hc s.slot,
    fun hc => ⟨(ht.early hc).1, ht.finish_early hc s.slot⟩⟩

/-- A picture that comes `ms` milliseconds after the first, an IDR picture with parameter sets or another without. -/
def pictureAt (ms : Nat) (idr : Bool) : Frame :=
  .video ⟨1000000000 + ms * 1000000, 2, 2,
    (if idr then [0, 0, 1, 0x67, 66, 0, 30, 0, 0, 1, 0x68, 9, 0, 0, 1, 0x65] else [0, 0, 1, 0x41]) ++
      [UInt8.ofNat (ms / 100 + 1)]⟩

/-- Nine pictures at gaps between 300 and 600 ticks, the first without parameter sets.  The IDR picture at tick 2600 meets
a slot that is held. -/
def unevenPictures : List Call :=
  [(0, false), (300, true), (700, false), (1000, false), (1500, true), (2100, false), (2600, true), (3000, true),
    (3400, false)].flatMap fun (ms, idr) =>
      [.manage (pictureAt ms idr), .configure] ++ (if ms = 0 then [] else [.append]) ++
        if ms = 2600 ∨ ms = 3400 then [.clear] else []

def unevenPlan : SegmenterPlan := ⟨1, 1, 1000, 2, 0⟩

theorem placed_where_arrived_uneven : Follows VideoInTurn (start .video unevenPlan 4096) unevenPictures ∧
    let s := (start .video unevenPlan 4096).run unevenPictures
    let line := Moment.arrivals s.history
    let earlier := (start .video unevenPlan 4096).fills unevenPictures
    let last := s.slot.fills (s.apply .finish).slot
    (∃ origin, ∀ frame clock, Moment.taken frame clock ∈ s.history →
      clock.ticksAt frame.pts = nanosToTicks (frame.pts - origin) unevenPlan.timeBase) ∧
    (s.assembly.configured = true → ∃ cuts kept, cuts.flatMap Cut.samples <:+: line ∧ cuts.IsChain Cut.Meets ∧
      kept.Sublist cuts ∧ List.Forall₂ Slot.Shows (earlier ++ last) kept) ∧
    (s.assembly.configured = false → earlier = [] ∧ ∀ slot ∈ last, ∃ group, group <:+ line ∧
      group.head?.map Prod.fst = some slot.timestamp ∧ slot.Carries (group.map fun x => (slot.timestamp, x.2)) ∧
      slot.duration = 0) := by
  have h : Follows VideoInTurn (start .video unevenPlan 4096) unevenPictures := by decide +kernel
  exact ⟨h, placed_where_arrived unevenPlan 4096 unevenPictures h⟩

/-- The second fragment is cut at tick 3000 only. -/
example :
    let s := (start .video unevenPlan 4096).run unevenPictures
    ((start .video unevenPlan 4096).fills unevenPictures ++ s.slot.fills (s.apply .finish).slot).map
      (fun slot => (slot.timestamp, slot.duration)) = [(300, 1200), (1500, 1500), (3000, 800)] := by decide +kernel

/-- Two IDR pictures without parameter sets, 512 ticks apart. -/
def twoPictures : List Call :=
  [0, 40].flatMap fun ms => [.manage (.video ⟨1000000000 + ms * 1000000, 2, 2, [0, 0, 1, 0x65, UInt8.ofNat (ms + 1)]⟩), .configure]

/-- When the two pictures are finished, the second is decoded at the tick of the first. -/
theorem second_at_first_tick : Follows VideoInTurn (start .video .default 65536) twoPictures ∧
    let s := (start .video .default 65536).run twoPictures
    ∃ slot ∈ s.slot.fills (s.apply .finish).slot, ∃ f : Fragment, slot.Holds f ∧
      ¬∀ x ∈ Sample.timed slot.timestamp f.samples, x ∈ Moment.arrivals s.history := by
  refine ⟨by decide +kernel, (((start .video .default 65536).run twoPictures).apply .finish).slot, by decide +kernel,
    ⟨1, 1, 0, [⟨0, true, [0, 0, 0, 2, 0x65, 1]⟩, ⟨0, true, [0, 0, 0, 2, 0x65, 41]⟩]⟩, ⟨?_, ?_, ?_⟩, ?_⟩
  · decide +kernel
  · decide +kernel
  · decide +kernel
  · decide +kernel

end Session

end Packager

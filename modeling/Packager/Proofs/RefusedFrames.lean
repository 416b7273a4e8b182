import Packager.Proofs.SharedOrigin
/-!
# Proofs.RefusedFrames — cycles in which every frame is refused

A segmenter refuses a frame for its kind and its bytes, whatever it took before, and stays as it is.  So a cycle whose
frames are all refused, while no segment waits, reports them and does nothing else but fix the origin, which comes before
any frame is looked at (`refused_cycle`).  An origin that such a cycle fixed is that of everything later.
-/
namespace Packager

namespace Segmenter

/-- What a segmenter refuses a frame with. -/
def refusal? (s : Segmenter) (frame : Frame) : Option Failure :=
  match s.manage frame with
  | .error failure => some failure
  | .ok _ => none

/-- **A frame is refused for what it is**, whatever the segmenter took before. -/
theorem refusal?_eq_of_kind {s g : Segmenter} (hk : g.kind = s.kind) (frame : Frame) :
    g.refusal? frame = s.refusal? frame := by
  obtain ⟨a, stream⟩ := s
  obtain ⟨b, stream'⟩ := g
  unfold refusal?
  cases stream with
  | audio v =>
    cases stream' with
    | video v' => cases hk
    | audio v' =>
      cases frame with
      | video f => rfl
      | audio f =>
        rw [manage_audio, manage_audio]
        unfold AudioStream.manage
        cases f.data.isEmpty with
        | true => rfl
        | false => cases Adts.header? f.data <;> rfl
  | video v =>
    cases stream' with
    | audio v' => cases hk
    | video v' =>
      cases frame with
      | audio f => rfl
      | video f =>
        rw [manage_video, manage_video]
        unfold VideoStream.manage
        dsimp only
        cases (AnnexB.split f.data).isEmpty with
        | true => rfl
        | false => cases (AnnexB.split f.data).any VideoStream.isCoded <;> rfl

end Segmenter

/-- **A refused frame leaves the channel as it was**, and the disk alone. -/
theorem Channel.feed_refused {c : Channel} {frame : Frame} {failure : Failure}
    (h : c.segmenter.refusal? frame = some failure) (w : World) (settings : Settings) (id : TrackId) (j : Journal) :
    c.feed w.outlet settings id frame j = (⟨c, none, some failure⟩, j) := by
  unfold Segmenter.refusal? at h
  unfold feed
  cases hm : c.segmenter.manage frame with
  | ok r =>
    rw [hm] at h
    cases h
  | error failure' =>
    rw [hm] at h
    cases h
    rfl

namespace Publisher

variable {w : World} {p : Publisher} {j : Journal}

/-- What the frame of a track is refused with. -/
def refusal? (p : Publisher) (entry : TrackId × Frame) : Option Failure :=
  match p.channels.find? entry.1 with
  | none => some (.unknownTrack entry.1)
  | some c => c.segmenter.refusal? entry.2

/-- The frames that are refused, each with its track and the reason. -/
def refusals (p : Publisher) (frames : List (TrackId × Frame)) : List (TrackId × Failure) :=
  frames.filterMap fun entry => (p.refusal? entry).map (entry.1, ·)

theorem setChannel_of_find? (hsorted : p.channels.Sorted) {id : TrackId} {c : Channel}
    (hc : p.channels.find? id = some c) : p.setChannel id c = p := by
  unfold setChannel
  rw [hsorted.insert_of_find? hc]

/-- **A refused frame is reported**, and that is all. -/
theorem feed_refused (hsorted : p.channels.Sorted) {entry : TrackId × Frame} {failure : Failure}
    (h : p.refusal? entry = some failure) (report : CycleReport) :
    feed w.outlet (report, p) entry j = ((report.fail entry.1 failure, p), j) := by
  obtain ⟨id, frame⟩ := entry
  unfold refusal? at h
  unfold feed
  dsimp only at h ⊢
  cases hc : p.channels.find? id with
  | none =>
    rw [hc] at h
    cases h
    rfl
  | some c =>
    rw [hc] at h
    simp only [StateM.bind_apply, StateM.pure_apply, Channel.feed_refused h, Option.toList_none, List.append_nil,
      setChannel_of_find? hsorted hc]

theorem feedAll_refused (hsorted : p.channels.Sorted) : ∀ (frames : List (TrackId × Frame)) (report : CycleReport),
    (∀ e ∈ frames, (p.refusal? e).isSome = true) → frames.foldlM (feed w.outlet) (report, p) j =
      (({ report with failures := report.failures ++ p.refusals frames }, p), j)
  | [], report, _ => by simp [refusals]
  | e :: frames, report, h => by
    obtain ⟨failure, hf⟩ := Option.isSome_iff_exists.1 (h e List.mem_cons_self)
    rw [List.foldlM_cons, StateM.bind_apply, feed_refused hsorted hf]
    rw [feedAll_refused hsorted frames _ fun e he => h e (List.mem_cons_of_mem _ he)]
    simp [refusals, CycleReport.fail, hf]

/-! ## Fixing the origin -/

theorem refusal?_fixOrigin (frames : List (TrackId × Frame)) (entry : TrackId × Frame) :
    (p.fixOrigin frames).refusal? entry = p.refusal? entry := by
  rcases p.fixOrigin_cases frames with he | ⟨-, origin, he⟩
  · rw [he]
  · rw [he]
    unfold refusal?
    rw [SortedMap.find?_mapValues]
    cases p.channels.find? entry.1 with
    | none => rfl
    | some c => exact Segmenter.refusal?_eq_of_kind (s := c.segmenter) (g := (c.setOrigin origin).segmenter) rfl entry.2

theorem refusals_fixOrigin (frames : List (TrackId × Frame)) : (p.fixOrigin frames).refusals frames = p.refusals frames := by
  unfold refusals
  simp only [refusal?_fixOrigin]

theorem ready_fixOrigin (frames : List (TrackId × Frame)) (h : ∀ e ∈ p.channels.entries, e.2.isHolding = false) :
    (p.fixOrigin frames).ready = [] := by
  have hfree : ∀ e ∈ (p.fixOrigin frames).channels.entries, e.2.isHolding = false := by
    rcases p.fixOrigin_cases frames with he | ⟨-, origin, he⟩
    · rw [he]
      exact h
    · rw [he]
      intro e hm
      obtain ⟨e', hm', rfl⟩ := List.mem_map.1 hm
      exact h e' hm'
  have hnone : (p.fixOrigin frames).channels.entries.filter (·.2.isHolding) = [] :=
    List.filter_eq_nil_iff.2 fun e hm => by rw [hfree e hm]; exact Bool.false_ne_true
  unfold ready
  rw [hnone]
  rfl

/-- **The origin stays** when it is fixed already, or no frame is of a track. -/
theorem fixOrigin_eq_self (frames : List (TrackId × Frame)) : p.fixOrigin frames = p ↔
    p.origin.isSome = true ∨ ∀ e ∈ frames, p.channels.contains e.1 = false := by
  constructor
  · intro he
    by_cases hc : ∃ e ∈ frames, p.channels.contains e.1 = true
    · obtain ⟨e, hm, hc⟩ := hc
      rw [← he]
      exact .inl (fixOrigin_isSome hm hc)
    · exact .inr fun e hm => by simpa using fun h => hc ⟨e, hm, h⟩
  · rintro (horigin | hnone)
    · rcases p.fixOrigin_cases frames with he | ⟨hn, -⟩
      · exact he
      · rw [hn] at horigin
        cases horigin
    · have hearliest : p.earliest frames = none := by
        unfold earliest
        rw [List.min?_eq_none_iff, List.map_eq_nil_iff, List.filter_eq_nil_iff]
        exact fun e hm => by rw [hnone e hm]; exact Bool.false_ne_true
      unfold fixOrigin
      rw [hearliest]
      cases p.origin <;> rfl

end Publisher

/-! ## Cycles -/

namespace Presentation

/-- **A cycle of refused frames** with nothing in the slots reports each of them, writes and announces nothing, and leaves
the publisher as it was but for the origin.  It is as if there had been no cycle exactly when the origin was fixed before
or no frame is of a track. -/
theorem refused_cycle (w : World) (settings : Settings) (ops : List Operation) (frames : List (TrackId × Frame)) :
    let s := (start settings).run w ops
    (∀ e ∈ frames, (s.publisher.refusal? e).isSome = true) →
    (∀ e ∈ s.publisher.channels.entries, e.2.isHolding = false) →
      s.publisher.cycle w.outlet frames s.journal =
        (({ CycleReport.empty with failures := s.publisher.refusals frames }, s.publisher.fixOrigin frames), s.journal) ∧
      (s.apply w (.cycle frames) = s ↔
        s.publisher.origin.isSome = true ∨ ∀ e ∈ frames, s.publisher.channels.contains e.1 = false) := by
  intro s hrefused hfree
  have hsorted : (s.publisher.fixOrigin frames).channels.Sorted :=
    (Publisher.fixOrigin_sound frames (run_sound w settings ops)).1.sorted
  -- the frames come after the origin is fixed, which does not change what is refused
  have hfed := Publisher.feedAll_refused (w := w) (j := s.journal) hsorted frames .empty fun e he => by
    rw [Publisher.refusal?_fixOrigin]
    exact hrefused e he
  have hcycle : s.publisher.cycle w.outlet frames s.journal =
      (({ CycleReport.empty with failures := s.publisher.refusals frames }, s.publisher.fixOrigin frames), s.journal) := by
    unfold Publisher.cycle
    rw [StateM.bind_apply, hfed, Publisher.refusals_fixOrigin]
    dsimp only
    rw [Publisher.ready_fixOrigin frames hfree]
    rfl
  refine ⟨hcycle, ?_⟩
  rw [← Publisher.fixOrigin_eq_self]
  have happly : s.apply w (.cycle frames) = ⟨s.publisher.fixOrigin frames, s.journal⟩ := by
    unfold apply Operation.run
    simp only [StateM.map_apply, hcycle]
  rw [happly]
  exact ⟨congrArg publisher, fun he => by rw [he]⟩

/-- A picture for an audio track. -/
def strayPicture : Frame := .video ⟨500000000, 2, 2, [0, 0, 1, 0x65]⟩

theorem refused_cycle_strayPicture :
    let s := (start .default).run .obliging [.addTrack 1 .audio]
    (∀ e ∈ [(1, strayPicture)], (s.publisher.refusal? e).isSome = true) ∧
      (∀ e ∈ s.publisher.channels.entries, e.2.isHolding = false) ∧
      (s.publisher.cycle World.obliging.outlet [(1, strayPicture)] s.journal).2 = s.journal ∧
      s.apply .obliging (.cycle [(1, strayPicture)]) ≠ s := by
  intro s
  have hrefused : ∀ e ∈ [(1, strayPicture)], (s.publisher.refusal? e).isSome = true := by decide +kernel
  have hfree : ∀ e ∈ s.publisher.channels.entries, e.2.isHolding = false := by decide +kernel
  obtain ⟨hcycle, hsame⟩ := refused_cycle .obliging .default [.addTrack 1 .audio] [(1, strayPicture)] hrefused hfree
  refine ⟨hrefused, hfree, congrArg Prod.snd hcycle, fun he => ?_⟩
  rcases hsame.1 he with horigin | hnone
  · exact absurd horigin (by decide +kernel)
  · exact absurd hnone (by decide +kernel)

/-- The origin of a picture that was refused is in the names of the files that the track gets later. -/
theorem refused_picture_moves_files :
    let s := (start .default).run .obliging [.addTrack 1 .audio]
    (∀ e ∈ [(1, strayPicture)], (s.publisher.refusal? e).isSome = true) ∧
      (∀ e ∈ s.publisher.channels.entries, e.2.isHolding = false) ∧
      (s.run .obliging [.cycle [(1, strayPicture)], .cycle [(1, twoSeconds)]]).journal.published ≠
        (s.run .obliging [.cycle [(1, twoSeconds)]]).journal.published := by
  decide +kernel

end Presentation
end Packager

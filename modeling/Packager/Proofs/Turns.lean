import Packager.Proofs.CycleOutcome
/-!
# Proofs.Turns — the turn of one track in a cycle

The frames of a cycle are taken one after the other.  When they are of distinct tracks, each track is left alone but for
its own turn (`intake_turn`), and what is noted then, in the report and in the journal, stays to the end of the cycle.
Releasing the finished segments touches no segmenter (`cycle_turn`).
-/
namespace Packager

theorem Heads.suffix {settings : Settings} {id : TrackId} {kind : Kind} {j k : Journal}
    (h : Heads settings id kind j k) : j <:+ k := by
  cases h with
  | nothing => exact List.suffix_refl j
  | failed content e => exact ⟨[_], rfl⟩
  | made content codec => exact ⟨[_, _], rfl⟩

theorem Grown.suffix {settings : Settings} {allowed : TrackId → Kind → Journal → Prop} {j k : Journal}
    (h : Grown settings allowed j k) : j <:+ k := by
  obtain ⟨new, rfl, -⟩ := h.exists_new
  exact ⟨new, rfl⟩

namespace Publisher

variable {w : World} {p q : Publisher} {j k l : Journal} {r r' r'' : CycleReport}

/-- Whether a report and a journal go on from others. -/
structure GoesOn (r : CycleReport) (j : Journal) (r' : CycleReport) (k : Journal) : Prop where
  failures : r.failures <+: r'.failures
  headers : r.headers <+: r'.headers
  journal : j <:+ k

namespace GoesOn

theorem refl (r : CycleReport) (j : Journal) : GoesOn r j r j :=
  ⟨List.prefix_refl r.failures, List.prefix_refl r.headers, List.suffix_refl j⟩

theorem trans (h : GoesOn r j r' k) (h' : GoesOn r' k r'' l) : GoesOn r j r'' l :=
  ⟨h.failures.trans h'.failures, h.headers.trans h'.headers, h.journal.trans h'.journal⟩

end GoesOn

/-! ## Taking the frames -/

/-- **Taking the frame of one track** leaves the others alone. -/
theorem feed_other (acc : CycleReport × Publisher) (entry : TrackId × Frame) {id : TrackId} (hne : entry.1 ≠ id) :
    let out := feed w.outlet acc entry j
    out.1.2.settings = acc.2.settings ∧ out.1.2.channels.find? id = acc.2.channels.find? id := by
  obtain ⟨report, p⟩ := acc
  obtain ⟨id', frame⟩ := entry
  unfold feed
  dsimp only
  cases p.channels.find? id' with
  | none => exact ⟨rfl, rfl⟩
  | some c => exact ⟨rfl, (find?_setChannel ..).trans (if_neg hne)⟩

/-- What the turn of a track does. -/
theorem feed_self (acc : CycleReport × Publisher) {id : TrackId} {c : Channel} (hc : acc.2.channels.find? id = some c)
    (frame : Frame) :
    let fed := c.feed w.outlet acc.2.settings id frame j
    let out := feed w.outlet acc (id, frame) j
    out.2 = fed.2 ∧ out.1.2 = acc.2.setChannel id fed.1.channel ∧
      out.1.1.headers = acc.1.headers ++ fed.1.header.toList ∧
      out.1.1.failures = acc.1.failures ++ (fed.1.failure.map (id, ·)).toList := by
  obtain ⟨report, p⟩ := acc
  unfold feed
  simp only [hc, StateM.bind_apply, StateM.pure_apply]
  cases (c.feed w.outlet p.settings id frame j).1.failure with
  | none => simp
  | some failure => simp [CycleReport.fail]

theorem feed_goesOn (acc : CycleReport × Publisher) (entry : TrackId × Frame) :
    let out := feed w.outlet acc entry j
    GoesOn acc.1 j out.1.1 out.2 ∧ out.1.2.settings = acc.2.settings := by
  obtain ⟨report, p⟩ := acc
  obtain ⟨id, frame⟩ := entry
  cases hc : p.channels.find? id with
  | none =>
    unfold feed
    simp only [hc]
    exact ⟨⟨List.prefix_append _ _, List.prefix_refl _, List.suffix_refl _⟩, rfl⟩
  | some c =>
    obtain ⟨-, -, hheads⟩ := Channel.feed_heads w p.settings id c frame j
    obtain ⟨hj, hp, hheaders, hfailures⟩ := feed_self (w := w) (j := j) (report, p) hc frame
    generalize feed w.outlet (report, p) (id, frame) j = out at hj hp hheaders hfailures ⊢
    refine ⟨⟨?_, ?_, hj ▸ hheads.suffix⟩, by rw [hp]; rfl⟩
    · rw [hfailures]
      exact List.prefix_append _ _
    · rw [hheaders]
      exact List.prefix_append _ _

theorem feedAll_goesOn (frames : List (TrackId × Frame)) (acc : CycleReport × Publisher) :
    let out := frames.foldlM (feed w.outlet) acc j
    GoesOn acc.1 j out.1.1 out.2 ∧ out.1.2.settings = acc.2.settings :=
  StateM.foldlM_invariant (f := feed w.outlet)
    (fun _ acc' k => GoesOn acc.1 j acc'.1 k ∧ acc'.2.settings = acc.2.settings)
    (fun entry _ acc' k h => by
      obtain ⟨hgoes, hsettings⟩ := feed_goesOn (w := w) (j := k) acc' entry
      exact ⟨h.1.trans hgoes, hsettings.trans h.2⟩) frames acc j ⟨.refl acc.1 j, rfl⟩

theorem feedAll_other {id : TrackId} : ∀ (frames : List (TrackId × Frame)) (acc : CycleReport × Publisher)
    (j : Journal), id ∉ frames.map Prod.fst →
    (frames.foldlM (feed w.outlet) acc j).1.2.channels.find? id = acc.2.channels.find? id
  | [], _, _, _ => rfl
  | entry :: frames, acc, j, h => by
    rw [List.map_cons, List.mem_cons, not_or] at h
    rw [List.foldlM_cons, StateM.bind_apply, feedAll_other frames _ _ h.2]
    exact (feed_other acc entry (Ne.symm h.1)).2

theorem fixOrigin_settings (frames : List (TrackId × Frame)) : (p.fixOrigin frames).settings = p.settings := by
  unfold fixOrigin
  split <;> rfl

/-- **The turn of a track**: at some point its frame is taken; its channel is as it was before all of them, and stays as
it is then. -/
theorem feedAll_turn {id : TrackId} {frame : Frame} {c : Channel} : ∀ (frames : List (TrackId × Frame))
    (acc : CycleReport × Publisher) (j : Journal), (frames.map Prod.fst).Nodup → (id, frame) ∈ frames →
    acc.2.channels.find? id = some c →
    let out := frames.foldlM (feed w.outlet) acc j
    ∃ k, j <:+ k ∧
      let fed := c.feed w.outlet acc.2.settings id frame k
      out.1.2.channels.find? id = some fed.1.channel ∧ fed.2 <:+ out.2 ∧
      (∀ path, fed.1.header = some path → path ∈ out.1.1.headers) ∧
      ∀ failure, fed.1.failure = some failure → (id, failure) ∈ out.1.1.failures
  | [], _, _, _, hm, _ => absurd hm List.not_mem_nil
  | entry :: frames, acc, j, hnodup, hm, hc => by
    obtain ⟨hnot, hrest⟩ := List.nodup_cons.1 hnodup
    rw [List.foldlM_cons, StateM.bind_apply]
    rcases List.mem_cons.1 hm with rfl | hm
    · obtain ⟨hj, hp, hheaders, hfailures⟩ := feed_self (w := w) (j := j) acc hc frame
      generalize feed w.outlet acc (id, frame) j = turn at hj hp hheaders hfailures ⊢
      have hafter := feedAll_other (w := w) frames turn.1 turn.2 hnot
      obtain ⟨hgoes, -⟩ := feedAll_goesOn (w := w) (j := turn.2) frames turn.1
      generalize frames.foldlM (feed w.outlet) turn.1 turn.2 = out at hafter hgoes ⊢
      refine ⟨j, List.suffix_refl j, ?_, hj ▸ hgoes.journal, fun path hpath => ?_, fun failure hfailure => ?_⟩
      · rw [hafter, hp, find?_setChannel, if_pos rfl]
      · refine hgoes.headers.subset ?_
        rw [hheaders, hpath]
        exact List.mem_append_right _ List.mem_cons_self
      · refine hgoes.failures.subset ?_
        rw [hfailures, hfailure]
        exact List.mem_append_right _ List.mem_cons_self
    · have hne : entry.1 ≠ id := fun he => hnot (he ▸ List.mem_map_of_mem hm)
      obtain ⟨hsettings, hsame⟩ := feed_other (w := w) (j := j) acc entry hne
      obtain ⟨hgoes, -⟩ := feed_goesOn (w := w) (j := j) acc entry
      obtain ⟨k, hk, hturn⟩ := feedAll_turn frames (feed w.outlet acc entry j).1 (feed w.outlet acc entry j).2 hrest hm
        (hsame.trans hc)
      rw [hsettings] at hturn
      exact ⟨k, hgoes.journal.trans hk, hturn⟩

theorem intake_turn {frames : List (TrackId × Frame)} (hnodup : (frames.map Prod.fst).Nodup) {id : TrackId}
    {frame : Frame} (hm : (id, frame) ∈ frames) {c : Channel} (hc : (p.fixOrigin frames).channels.find? id = some c) :
    let out := p.intake w.outlet frames j
    ∃ k, j <:+ k ∧
      let fed := c.feed w.outlet p.settings id frame k
      out.1.2.channels.find? id = some fed.1.channel ∧ fed.2 <:+ out.2 ∧
      (∀ path, fed.1.header = some path → path ∈ out.1.1.headers) ∧
      ∀ failure, fed.1.failure = some failure → (id, failure) ∈ out.1.1.failures := by
  have hturn := feedAll_turn (w := w) frames (.empty, p.fixOrigin frames) j hnodup hm hc
  dsimp only at hturn ⊢
  rwa [fixOrigin_settings] at hturn

/-! ## Releasing the finished segments -/

/-- **Releasing a segment** frees its slot unless the gate holds it. -/
theorem release_state {id : TrackId} {c : Channel} {window : Window} (hw : p.window? id c = some window)
    (report : CycleReport) (k : Journal) :
    (release w.outlet (report, p) (id, c) k).1.2 =
      if (p.gate.judge window).1 = .hold then { p with gate := (p.gate.judge window).2 }
      else { p with gate := (p.gate.judge window).2 }.setChannel id { c with slot := c.slot.clear } := by
  unfold release
  simp only [hw]
  generalize p.gate.judge window = judged
  obtain ⟨verdict, gate⟩ := judged
  cases verdict with
  | hold => rfl
  | discard => rfl
  | publish =>
    have hfreed := (Channel.publish_closes w p.settings id c k).2
    simp only [StateM.bind_apply, StateM.pure_apply, hfreed]
    rfl

theorem release_goesOn (acc : CycleReport × Publisher) (entry : TrackId × Channel) :
    let out := release w.outlet acc entry j
    GoesOn acc.1 j out.1.1 out.2 := by
  obtain ⟨report, p⟩ := acc
  obtain ⟨id, c⟩ := entry
  unfold release
  dsimp only
  cases p.window? id c with
  | none => exact .refl report j
  | some window =>
    dsimp only
    generalize p.gate.judge window = judged
    obtain ⟨verdict, gate⟩ := judged
    cases verdict with
    | hold => exact ⟨List.prefix_refl _, List.prefix_refl _, List.suffix_refl _⟩
    | discard => exact ⟨List.prefix_refl _, List.prefix_refl _, List.suffix_refl _⟩
    | publish =>
      have hcloses := (Channel.publish_closes w p.settings id c j).1
      have hgrown := (hcloses.grown (fun _ _ _ => True) fun _ _ => trivial).suffix
      simp only [StateM.bind_apply, StateM.pure_apply]
      cases (c.publish w.outlet p.settings id j).1.1 with
      | ok path => exact ⟨List.prefix_refl _, List.prefix_refl _, hgrown⟩
      | error failure => exact ⟨List.prefix_append _ _, List.prefix_refl _, hgrown⟩

/-- Releasing the segment of a track keeps the list of those to come, and touches no segmenter. -/
theorem Current.release {id : TrackId} {c : Channel} {rest : List (TrackId × Channel)} (h : Current ((id, c) :: rest) p)
    (report : CycleReport) (k : Journal) :
    let q := (release w.outlet (report, p) (id, c) k).1.2
    Current rest q ∧
      ∀ id', (q.channels.find? id').map Channel.segmenter = (p.channels.find? id').map Channel.segmenter := by
  have hc : p.channels.find? id = some c := h.present (id, c) List.mem_cons_self
  cases hw : p.window? id c with
  | none =>
    unfold Publisher.release
    simp only [hw]
    exact ⟨h.tail, fun _ => rfl⟩
  | some window =>
    dsimp only
    rw [release_state hw]
    split
    · exact ⟨⟨h.tail.present, h.tail.nodup⟩, fun _ => rfl⟩
    · have hnext := h.setChannel { c with slot := c.slot.clear }
      refine ⟨⟨hnext.present, hnext.nodup⟩, fun id' => ?_⟩
      rw [find?_setChannel]
      split
      · rename_i he
        rw [← he, hc]
        rfl
      · rfl

/-- **Releasing what is ready** touches no segmenter, and what was noted stays. -/
theorem releaseAll_segmenter (hsorted : p.channels.Sorted) (report : CycleReport) :
    let out := p.ready.foldlM (release w.outlet) (report, p) j
    (∀ id, (out.1.2.channels.find? id).map Channel.segmenter = (p.channels.find? id).map Channel.segmenter) ∧
      GoesOn report j out.1.1 out.2 := by
  let inv : List (TrackId × Channel) → CycleReport × Publisher → Journal → Prop := fun rest acc k =>
    Current rest acc.2 ∧
    (∀ id, (acc.2.channels.find? id).map Channel.segmenter = (p.channels.find? id).map Channel.segmenter) ∧
    GoesOn report j acc.1 k
  refine (StateM.foldlM_invariant (f := release w.outlet) inv ?_ p.ready (report, p) j
    ⟨(current_ready hsorted).1, fun _ => rfl, .refl report j⟩).2
  rintro ⟨id, c⟩ rest ⟨r, q⟩ k ⟨hcurrent, hsame, hgoes⟩
  obtain ⟨hrest, hsame'⟩ := Current.release (w := w) hcurrent r k
  exact ⟨hrest, fun id' => (hsame' id').trans (hsame id'), hgoes.trans (release_goesOn (r, q) (id, c))⟩

/-- **A cycle after its frames are taken** touches no segmenter, and what was noted stays. -/
theorem cycle_goesOn (frames : List (TrackId × Frame)) (hsorted : p.channels.Sorted) :
    let fed := p.intake w.outlet frames j
    let out := p.cycle w.outlet frames j
    (∀ id, (out.1.2.channels.find? id).map Channel.segmenter = (fed.1.2.channels.find? id).map Channel.segmenter) ∧
      GoesOn fed.1.1 fed.2 out.1.1 out.2 := by
  have hfed : (p.intake w.outlet frames j).1.2.channels.Sorted := by
    have horigin : Presentation.Moves w ⟨p, j⟩ ⟨p.fixOrigin frames, j⟩ := fixOrigin_moves frames
    exact (feedAll_moves (w := w) (j := j) frames).1.sorted (horigin.sorted hsorted)
  have hrelease := releaseAll_segmenter (w := w) (j := (p.intake w.outlet frames j).2) hfed
    (p.intake w.outlet frames j).1.1
  unfold cycle
  simp only [StateM.bind_apply]
  unfold intake at hrelease ⊢
  generalize frames.foldlM (feed w.outlet) (.empty, p.fixOrigin frames) j = fed at hrelease ⊢
  generalize fed.1.2.ready.foldlM (release w.outlet) (fed.1.1, fed.1.2) fed.2 = out at hrelease ⊢
  obtain ⟨hsegmenters, hgoes⟩ := hrelease
  cases out.1.1.published.isEmpty with
  | true => exact ⟨hsegmenters, hgoes⟩
  | false =>
    have hlast : ∀ r, fed.2 <:+ .manifest r :: out.2 := fun r => hgoes.journal.trans (List.suffix_cons _ out.2)
    simp only [Bool.false_eq_true, if_false, StateM.bind_apply, World.writeManifest_apply]
    cases w.writeManifest out.2 with
    | ok => exact ⟨hsegmenters, hgoes.failures, hgoes.headers, hlast _⟩
    | error failure => exact ⟨hsegmenters, hgoes.failures, hgoes.headers, hlast _⟩

/-- **The turn of a track in a cycle**: its frame is taken by the channel that the cycle found, and the segmenter, the
effects and what the report notes of it are there when the cycle ends. -/
theorem cycle_turn {frames : List (TrackId × Frame)} (hsorted : p.channels.Sorted)
    (hnodup : (frames.map Prod.fst).Nodup) {id : TrackId} {frame : Frame} (hm : (id, frame) ∈ frames) {c : Channel}
    (hc : (p.fixOrigin frames).channels.find? id = some c) :
    let out := p.cycle w.outlet frames j
    ∃ k d, j <:+ k ∧ out.1.2.channels.find? id = some d ∧
      let fed := c.feed w.outlet p.settings id frame k
      d.segmenter = fed.1.channel.segmenter ∧ fed.2 <:+ out.2 ∧
      (∀ path, fed.1.header = some path → path ∈ out.1.1.headers) ∧
      ∀ failure, fed.1.failure = some failure → (id, failure) ∈ out.1.1.failures := by
  obtain ⟨k, hk, hfed, hjournal, hheaders, hfailures⟩ := intake_turn (w := w) (j := j) hnodup hm hc
  obtain ⟨hsegmenters, hgoes⟩ := cycle_goesOn (w := w) (j := j) frames hsorted
  have hd := hsegmenters id
  rw [hfed, Option.map_some, Option.map_eq_some_iff] at hd
  obtain ⟨d, hd, hsegmenter⟩ := hd
  exact ⟨k, d, hk, hd, hsegmenter, hjournal.trans hgoes.journal, fun path h => hgoes.headers.subset (hheaders path h),
    fun failure h => hgoes.failures.subset (hfailures failure h)⟩

end Publisher
end Packager

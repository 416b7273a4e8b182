import Packager.Proofs.RefusedFrames
import Packager.Proofs.Turns
/-!
# Proofs.Isolation — a track in two cycles that differ elsewhere

The tracks of a cycle share one report, one manifest, one gate and one folder.  A frame is taken by the channel of its
track alone, and the world has a say in that only by its answer to one write, of the track's own initialization segment
(`Channel.feed_asks`).  So two cycles from one state come to the same for a track when they have the same frame for it, or
none, and that write is answered alike, whatever the other frames are and whatever else fails (`tracks_isolated`).
-/
namespace Packager

/-! ## The writes of one file -/

/-- What was written to a path, or tried to be, with the answers, the latest first. -/
def Journal.writes (path : Path) (j : Journal) : List (Bytes × Except IoError Unit) :=
  j.filterMap fun
    | .wrote target content result => if target = path then some (content, result) else none
    | _ => none

namespace Journal

variable {path target : Path} (content : Bytes) (result : Except IoError Unit) (j : Journal)

theorem writes_wrote : writes path (.wrote path content result :: j) = (content, result) :: writes path j :=
  List.filterMap_cons_some (if_pos rfl)

theorem writes_wrote_ne (h : target ≠ path) : writes path (.wrote target content result :: j) = writes path j :=
  List.filterMap_cons_none (if_neg h)

end Journal

/-- Taking a frame writes no initialization segment of another track. -/
theorem Heads.writes_other {settings : Settings} {id id' : TrackId} {kind : Kind} {j k : Journal}
    (h : Heads settings id' kind j k) (hne : id' ≠ id) (extension : String) :
    k.writes (Naming.headerPath settings.folder settings.baseName id extension) =
      j.writes (Naming.headerPath settings.folder settings.baseName id extension) := by
  have hpath : Naming.headerPath settings.folder settings.baseName id' (Naming.fileExtension kind) ≠
      Naming.headerPath settings.folder settings.baseName id extension := fun he => hne (Naming.headerPath_inj he)
  cases h with
  | nothing => rfl
  | failed content e => exact Journal.writes_wrote_ne content (.error e) j hpath
  | made content codec => exact Journal.writes_wrote_ne content (.ok ()) j hpath

namespace Channel

/-- Publishing a segment writes no initialization segment. -/
theorem publish_writes (w : World) (settings : Settings) (id id' : TrackId) (c : Channel) (j : Journal)
    (extension : String) :
    (c.publish w.outlet settings id j).2.writes (Naming.headerPath settings.folder settings.baseName id' extension) =
      j.writes (Naming.headerPath settings.folder settings.baseName id' extension) := by
  have hpath : c.segmentPath settings id ≠ Naming.headerPath settings.folder settings.baseName id' extension :=
    fun he => Naming.headerPath_ne_segmentPath _ _ _ _ _ _ _ he.symm
  unfold publish Slot.writeTo
  simp only [StateM.bind_apply, World.writeFile_apply]
  generalize w.writeFile j (c.segmentPath settings id) c.slot.data = written
  cases written with
  | error e => exact Journal.writes_wrote_ne c.slot.data (.error e) j hpath
  | ok => exact Journal.writes_wrote_ne c.slot.data (.ok ()) j hpath

/-! ## One frame in two worlds -/

/-- **A frame asks the disk once at most**, to write the initialization segment: either it comes to the same in every
world, or to what the answer makes of it. -/
theorem feed_asks (settings : Settings) (id : TrackId) (c : Channel) (frame : Frame) :
    (∃ fed, ∀ (w : World) (j : Journal), c.feed w.outlet settings id frame j = (fed, j)) ∨
    ∃ (content : Bytes) (failed : IoError → Fed) (made : Fed) (news : Announcement), ∀ (w : World) (j : Journal),
      let header := c.headerPath settings id
      (∀ e, w.writeFile j header content = .error e →
        c.feed w.outlet settings id frame j = (failed e, .wrote header content (.error e) :: j)) ∧
      (w.writeFile j header content = .ok () →
        c.feed w.outlet settings id frame j = (made, .announced news :: .wrote header content (.ok ()) :: j)) := by
  unfold feed
  cases hm : c.segmenter.manage frame with
  | error failure => exact .inl ⟨_, fun _ _ => rfl⟩
  | ok r =>
    obtain ⟨isNew, g⟩ := r
    dsimp only
    cases hc : g.configure with
    | error lack => exact .inl ⟨_, fun _ _ => rfl⟩
    | ok g' =>
      dsimp only
      generalize hh : g'.describe (.empty settings.segment.maxBytes) = header
      obtain ⟨result, state, slot⟩ := header
      rcases result with failure | made
      · exact .inl ⟨_, fun _ _ => rfl⟩
      · cases made with
        | false => exact .inl ⟨_, fun _ _ => rfl⟩
        | true =>
          have hpath : headerPath settings id ⟨state, c.slot⟩ = c.headerPath settings id := by
            unfold headerPath
            rw [show kind ⟨state, c.slot⟩ = c.kind from (described_keeps hm hc hh).1]
          simp only [StateM.bind_apply, Slot.writeTo, World.writeFile_apply, hpath]
          refine .inr ⟨slot.data, fun e => ⟨⟨state.flush, c.slot⟩, none, some (.io e)⟩,
            ⟨(append ⟨state, c.slot⟩).1, some (c.headerPath settings id), (append ⟨state, c.slot⟩).2⟩,
            .codec (adaptationSet ⟨state, c.slot⟩) (toString id) state.codec, fun w j => ⟨fun e hw => ?_, fun hw => ?_⟩⟩
          · rw [hw]
            rfl
          · rw [hw]
            rfl

/-- **A frame comes to the same in two worlds** that answer alike where both are asked. -/
theorem feed_alike (w w' : World) (settings : Settings) (id : TrackId) (c : Channel) (frame : Frame) {j k : Journal} :
    let header := c.headerPath settings id
    let fed := c.feed w.outlet settings id frame j
    let fed' := c.feed w'.outlet settings id frame k
    (∀ a b, fed.2.writes header = a :: j.writes header → fed'.2.writes header = b :: k.writes header → a.2 = b.2) →
    fed.1 = fed'.1 ∧
      ∃ tried, fed.2.writes header = tried ++ j.writes header ∧ fed'.2.writes header = tried ++ k.writes header := by
  intro header fed fed' hanswer
  obtain ⟨same, hsame⟩ | ⟨content, failed, made, news, hasks⟩ := feed_asks settings id c frame
  · have hfed : fed = (same, j) := hsame w j
    have hfed' : fed' = (same, k) := hsame w' k
    rw [hfed, hfed']
    exact ⟨rfl, [], rfl, rfl⟩
  · have hwrites : ∀ (v : World) (l : Journal), (c.feed v.outlet settings id frame l).2.writes header =
        (content, v.writeFile l header content) :: l.writes header := by
      intro v l
      cases hv : v.writeFile l header content with
      | error e =>
        rw [(hasks v l).1 e hv]
        exact Journal.writes_wrote content (.error e) l
      | ok =>
        rw [(hasks v l).2 hv]
        exact Journal.writes_wrote content (.ok ()) l
    have hequal : w.writeFile j header content = w'.writeFile k header content :=
      hanswer _ _ (hwrites w j) (hwrites w' k)
    refine ⟨?_, [(content, w.writeFile j header content)], hwrites w j, (hwrites w' k).trans (by rw [hequal]; rfl)⟩
    cases hv : w.writeFile j header content with
    | error e => rw [show fed = _ from (hasks w j).1 e hv, show fed' = _ from (hasks w' k).1 e (hequal ▸ hv)]
    | ok => rw [show fed = _ from (hasks w j).2 hv, show fed' = _ from (hasks w' k).2 (hequal ▸ hv)]

end Channel

/-! ## One track among the others -/

namespace Publisher

variable {w : World} {p : Publisher} {j k l : Journal} {id : TrackId} {header : Path}
  {acc acc' acc'' : CycleReport × Publisher}

/-- Whether nothing happened to a track, to its failures in the report and to its initialization segment. -/
structure Untouched (id : TrackId) (header : Path) (acc : CycleReport × Publisher) (j : Journal)
    (acc' : CycleReport × Publisher) (k : Journal) : Prop where
  settings : acc'.2.settings = acc.2.settings
  channel : acc'.2.channels.find? id = acc.2.channels.find? id
  failures : acc'.1.failures.filter (·.1 = id) = acc.1.failures.filter (·.1 = id)
  writes : k.writes header = j.writes header

namespace Untouched

theorem refl : Untouched id header acc j acc j := ⟨rfl, rfl, rfl, rfl⟩

theorem trans (h : Untouched id header acc j acc' k) (h' : Untouched id header acc' k acc'' l) :
    Untouched id header acc j acc'' l :=
  ⟨h'.settings.trans h.settings, h'.channel.trans h.channel, h'.failures.trans h.failures, h'.writes.trans h.writes⟩

end Untouched

/-- **The turn of another track** leaves a track alone. -/
theorem feed_untouched (acc : CycleReport × Publisher) (entry : TrackId × Frame) (hne : entry.1 ≠ id)
    {extension : String}
    (hheader : header = Naming.headerPath acc.2.settings.folder acc.2.settings.baseName id extension) (j : Journal) :
    Untouched id header acc j (feed w.outlet acc entry j).1 (feed w.outlet acc entry j).2 := by
  obtain ⟨hsettings, hchannel⟩ := feed_other (w := w) (j := j) acc entry hne
  obtain ⟨report, p⟩ := acc
  obtain ⟨id', frame⟩ := entry
  have hothers : ∀ failure : Option Failure, (failure.map (id', ·)).toList.filter (·.1 = id) = [] := by
    intro failure
    cases failure with
    | none => rfl
    | some failure => exact List.filter_eq_nil_iff.2 (by simpa using hne)
  cases hc : p.channels.find? id' with
  | none =>
    have hfed : feed w.outlet (report, p) (id', frame) j = ((report.fail id' (.unknownTrack id'), p), j) := by
      unfold feed
      simp only [hc]
      rfl
    rw [hfed]
    refine ⟨rfl, rfl, ?_, rfl⟩
    rw [CycleReport.fail, List.filter_append]
    exact (congrArg _ (hothers (some (.unknownTrack id')))).trans (List.append_nil _)
  | some c =>
    obtain ⟨hj, -, -, hfailures⟩ := feed_self (w := w) (j := j) (report, p) hc frame
    refine ⟨hsettings, hchannel, ?_, ?_⟩
    · rw [hfailures, List.filter_append, hothers, List.append_nil]
    · rw [hj, hheader]
      exact (Channel.feed_heads w p.settings id' c frame j).2.2.writes_other hne extension

theorem feedAll_untouched (header : Path) {extension : String} : ∀ (frames : List (TrackId × Frame))
    (acc : CycleReport × Publisher) (j : Journal), id ∉ frames.map Prod.fst →
    header = Naming.headerPath acc.2.settings.folder acc.2.settings.baseName id extension →
    Untouched id header acc j (frames.foldlM (feed w.outlet) acc j).1 (frames.foldlM (feed w.outlet) acc j).2
  | [], _, _, _, _ => .refl
  | entry :: frames, acc, j, hnot, hheader => by
    rw [List.map_cons, List.mem_cons, not_or] at hnot
    have hturn := feed_untouched (w := w) acc entry (Ne.symm hnot.1) hheader j
    rw [List.foldlM_cons, StateM.bind_apply]
    exact hturn.trans (feedAll_untouched header frames _ _ hnot.2 (by rw [hturn.settings, hheader]))

/-- **What a track has of all the frames** is what it has of its own: the others leave it alone before and after. -/
theorem feedAll_own {frames : List (TrackId × Frame)} (hnodup : (frames.map Prod.fst).Nodup) {frame : Frame}
    (hm : (id, frame) ∈ frames) {c : Channel} (hc : acc.2.channels.find? id = some c) (j : Journal) :
    let header := c.headerPath acc.2.settings id
    let out := frames.foldlM (feed w.outlet) acc j
    ∃ k, k.writes header = j.writes header ∧
      let fed := c.feed w.outlet acc.2.settings id frame k
      out.1.2.channels.find? id = some fed.1.channel ∧ out.2.writes header = fed.2.writes header ∧
      out.1.1.failures.filter (·.1 = id) =
        acc.1.failures.filter (·.1 = id) ++ (fed.1.failure.map (id, ·)).toList := by
  obtain ⟨before, after, rfl⟩ := List.append_of_mem hm
  rw [List.map_append, List.map_cons, List.nodup_append, List.nodup_cons] at hnodup
  obtain ⟨-, ⟨hafter, -⟩, hdistinct⟩ := hnodup
  have hbefore : id ∉ before.map Prod.fst := fun h => hdistinct id h id List.mem_cons_self rfl
  -- the turns before and after are those of other tracks
  have hfirst := feedAll_untouched (w := w) (c.headerPath acc.2.settings id) before acc j hbefore rfl
  dsimp only
  rw [List.foldlM_append, StateM.bind_apply, List.foldlM_cons, StateM.bind_apply]
  generalize before.foldlM (feed w.outlet) acc j = first at hfirst ⊢
  obtain ⟨hj, hp, -, hfailures⟩ := feed_self (w := w) (j := first.2) first.1 (hfirst.channel.trans hc) frame
  have hlast := feedAll_untouched (w := w) (c.headerPath acc.2.settings id) after
    (feed w.outlet first.1 (id, frame) first.2).1 (feed w.outlet first.1 (id, frame) first.2).2 hafter
    (by rw [hp]; exact congrArg (fun s : Settings => c.headerPath s id) hfirst.settings.symm)
  rw [hfirst.settings] at hj hp hfailures
  refine ⟨first.2, hfirst.writes, ?_, ?_, ?_⟩
  · rw [hlast.channel, hp, find?_setChannel, if_pos rfl]
  · rw [hlast.writes, hj]
  · rw [hlast.failures, hfailures, List.filter_append, hfirst.failures]
    cases (c.feed w.outlet acc.2.settings id frame first.2).1.failure with
    | none => rfl
    | some failure => simp

/-! ## Releasing the segments -/

theorem release_writes (acc : CycleReport × Publisher) (entry : TrackId × Channel) (id : TrackId) (extension : String) :
    let out := release w.outlet acc entry j
    out.1.2.settings = acc.2.settings ∧
      out.2.writes (Naming.headerPath acc.2.settings.folder acc.2.settings.baseName id extension) =
        j.writes (Naming.headerPath acc.2.settings.folder acc.2.settings.baseName id extension) := by
  obtain ⟨report, p⟩ := acc
  obtain ⟨id', c⟩ := entry
  unfold release
  dsimp only
  cases p.window? id' c with
  | none => exact ⟨rfl, rfl⟩
  | some window =>
    dsimp only
    generalize p.gate.judge window = judged
    obtain ⟨verdict, gate⟩ := judged
    cases verdict with
    | hold => exact ⟨rfl, rfl⟩
    | discard => exact ⟨rfl, rfl⟩
    | publish => exact ⟨rfl, c.publish_writes w p.settings id' id j extension⟩

/-- **Once the frames are taken**, a cycle writes no initialization segment. -/
theorem cycle_writes (frames : List (TrackId × Frame)) (extension : String) :
    let header := Naming.headerPath p.settings.folder p.settings.baseName id extension
    (p.cycle w.outlet frames j).2.writes header = (p.intake w.outlet frames j).2.writes header := by
  intro header
  have hsettings : (p.intake w.outlet frames j).1.2.settings = p.settings :=
    (feedAll_goesOn frames (.empty, p.fixOrigin frames)).2.trans (fixOrigin_settings frames)
  unfold cycle
  simp only [StateM.bind_apply]
  unfold intake at hsettings ⊢
  generalize frames.foldlM (feed w.outlet) (.empty, p.fixOrigin frames) j = fed at hsettings ⊢
  let inv : List (TrackId × Channel) → CycleReport × Publisher → Journal → Prop := fun _ acc k =>
    acc.2.settings = p.settings ∧ k.writes header = fed.2.writes header
  have hrelease := StateM.foldlM_invariant (f := release w.outlet) inv (by
    rintro entry rest acc k ⟨hs, hk⟩
    obtain ⟨hs', hk'⟩ := release_writes (w := w) (j := k) acc entry id extension
    rw [hs] at hk'
    exact ⟨hs'.trans hs, hk'.trans hk⟩) fed.1.2.ready (fed.1.1, fed.1.2) fed.2 ⟨hsettings, rfl⟩
  generalize fed.1.2.ready.foldlM (release w.outlet) (fed.1.1, fed.1.2) fed.2 = out at hrelease ⊢
  cases out.1.1.published.isEmpty with
  | true => exact hrelease.2
  | false =>
    simp only [Bool.false_eq_true, if_false, StateM.bind_apply, World.writeManifest_apply]
    cases w.writeManifest out.2 with
    | ok => exact hrelease.2
    | error failure => exact hrelease.2

/-! ## Two cycles -/

/-- **The frames of two cycles come to the same for a track** that has the same one in both, or none. -/
theorem intake_alike {w' : World} (horigin : p.origin.isSome = true) {c : Channel}
    (hc : p.channels.find? id = some c) {frames frames' : List (TrackId × Frame)}
    (hnodup : (frames.map Prod.fst).Nodup) (hnodup' : (frames'.map Prod.fst).Nodup)
    (hsame : ∀ frame, (id, frame) ∈ frames ↔ (id, frame) ∈ frames') :
    let header := c.headerPath p.settings id
    let fed := p.intake w.outlet frames j
    let fed' := p.intake w'.outlet frames' j
    (∀ a b, fed.2.writes header = a :: j.writes header → fed'.2.writes header = b :: j.writes header → a.2 = b.2) →
    (∃ d, fed.1.2.channels.find? id = some d ∧ fed'.1.2.channels.find? id = some d ∧
      ((∀ frame, (id, frame) ∉ frames) → d = c)) ∧
    fed.1.1.failures.filter (·.1 = id) = fed'.1.1.failures.filter (·.1 = id) ∧
    fed.2.writes header = fed'.2.writes header := by
  intro header fed fed' hanswer
  -- the origin is fixed, so no frame sets it for the others
  have hfed : fed = frames.foldlM (feed w.outlet) (.empty, p) j :=
    congrArg (fun q => frames.foldlM (feed w.outlet) (.empty, q) j) ((fixOrigin_eq_self frames).2 (.inl horigin))
  have hfed' : fed' = frames'.foldlM (feed w'.outlet) (.empty, p) j :=
    congrArg (fun q => frames'.foldlM (feed w'.outlet) (.empty, q) j) ((fixOrigin_eq_self frames').2 (.inl horigin))
  by_cases hframe : ∃ frame, (id, frame) ∈ frames
  · obtain ⟨frame, hm⟩ := hframe
    have hc : ((CycleReport.empty, p) : CycleReport × Publisher).2.channels.find? id = some c := hc
    obtain ⟨k, hk, hchannel, hwrites, hfailures⟩ := feedAll_own (w := w) hnodup hm hc j
    obtain ⟨k', hk', hchannel', hwrites', hfailures'⟩ := feedAll_own (w := w') hnodup' ((hsame frame).1 hm) hc j
    rw [← hfed] at hchannel hwrites hfailures
    rw [← hfed'] at hchannel' hwrites' hfailures'
    obtain ⟨hequal, tried, htried, htried'⟩ := Channel.feed_alike w w' p.settings id c frame fun a b ha hb =>
        hanswer a b (hwrites.trans (ha.trans (congrArg _ hk))) (hwrites'.trans (hb.trans (congrArg _ hk')))
    refine ⟨⟨_, hchannel, hchannel'.trans (by rw [hequal]), fun hnone => absurd hm (hnone frame)⟩, ?_, ?_⟩
    · rw [hfailures, hfailures', hequal]
    · rw [hwrites, hwrites', htried, htried', hk, hk']
  · have hnone : ∀ {l : List (TrackId × Frame)}, (∀ frame, (id, frame) ∉ l) → id ∉ l.map Prod.fst := by
      intro l hl hm
      obtain ⟨⟨_, frame⟩, he, rfl⟩ := List.mem_map.1 hm
      exact hl frame he
    have hnot : ∀ frame, (id, frame) ∉ frames := fun frame hm => hframe ⟨frame, hm⟩
    have hleft := feedAll_untouched (w := w) header frames (.empty, p) j (hnone hnot) rfl
    have hleft' := feedAll_untouched (w := w') header frames' (.empty, p) j
      (hnone fun frame hm => hnot frame ((hsame frame).2 hm)) rfl
    rw [← hfed] at hleft
    rw [← hfed'] at hleft'
    exact ⟨⟨c, hleft.channel.trans hc, hleft'.channel.trans hc, fun _ => rfl⟩,
      hleft.failures.trans hleft'.failures.symm, hleft.writes.trans hleft'.writes.symm⟩

end Publisher

namespace Presentation

/-- **Tracks are isolated within a cycle.**  After every run that fixed the origin, two cycles, in whatever worlds, come to
the same for a track that has the same frame in both, or none, if the disk answers alike where both write the track's
initialization segment: the segmenter afterwards; the channel, with the segment in its slot, before the gate is asked;
what was written of its initialization segment; and the failures of its frame.  Without a frame the segmenter is what it
was.  Nothing is asked of the other frames or of any other answer. -/
theorem tracks_isolated (v w w' : World) (settings : Settings) (ops : List Operation)
    (frames frames' : List (TrackId × Frame)) (id : TrackId) (c : Channel) :
    let s := (start settings).run v ops
    let header := c.headerPath s.publisher.settings id
    let fed := s.publisher.intake w.outlet frames s.journal
    let fed' := s.publisher.intake w'.outlet frames' s.journal
    let out := s.publisher.cycle w.outlet frames s.journal
    let out' := s.publisher.cycle w'.outlet frames' s.journal
    s.publisher.origin.isSome = true → s.publisher.channels.find? id = some c →
    (frames.map Prod.fst).Nodup → (frames'.map Prod.fst).Nodup →
    (∀ frame, (id, frame) ∈ frames ↔ (id, frame) ∈ frames') →
    (∀ a b, out.2.writes header = a :: s.journal.writes header →
      out'.2.writes header = b :: s.journal.writes header → a.2 = b.2) →
    (∃ d, fed.1.2.channels.find? id = some d ∧ fed'.1.2.channels.find? id = some d ∧
      (out.1.2.channels.find? id).map Channel.segmenter = some d.segmenter ∧
      (out'.1.2.channels.find? id).map Channel.segmenter = some d.segmenter ∧
      ((∀ frame, (id, frame) ∉ frames) → d.segmenter = c.segmenter)) ∧
    out.2.writes header = out'.2.writes header ∧
    fed.1.1.failures.filter (·.1 = id) = fed'.1.1.failures.filter (·.1 = id) := by
  intro s header fed fed' out out' horigin hc hnodup hnodup' hsame hanswer
  have hsorted : s.publisher.channels.Sorted := (run_sound v settings ops).sorted
  -- what is written of the file is written while the frames are taken
  have hwrites : out.2.writes header = fed.2.writes header := Publisher.cycle_writes frames _
  have hwrites' : out'.2.writes header = fed'.2.writes header := Publisher.cycle_writes frames' _
  rw [hwrites, hwrites'] at hanswer ⊢
  obtain ⟨⟨d, hd, hd', hstill⟩, hfailures, hheader⟩ :=
    Publisher.intake_alike horigin hc hnodup hnodup' hsame hanswer
  obtain ⟨hsegmenters, -⟩ := Publisher.cycle_goesOn (w := w) (j := s.journal) frames hsorted
  obtain ⟨hsegmenters', -⟩ := Publisher.cycle_goesOn (w := w') (j := s.journal) frames' hsorted
  refine ⟨⟨d, hd, hd', ?_, ?_, fun hnone => congrArg Channel.segmenter (hstill hnone)⟩, hheader, hfailures⟩
  · exact (hsegmenters id).trans (congrArg (Option.map Channel.segmenter) hd)
  · exact (hsegmenters' id).trans (congrArg (Option.map Channel.segmenter) hd')

/-- A world in which one file can be written. -/
def onlyFile (path : Path) : World :=
  { World.obliging with writeFile := fun _ target _ => if target = path then .ok () else .error .notAFolder }

/-- The other tracks fail, and so does the segment of the first one, but not its segmenter. -/
theorem tracks_isolated_onlyFile :
    let s := (start .default).run .obliging [.addTrack 1 .audio, .addTrack 2 .audio, .cycle [(1, strayPicture)]]
    let header := Naming.headerPath ⟨"dash"⟩ "stream" 1 "m4a"
    let out := s.publisher.cycle World.obliging.outlet [(1, twoSeconds)] s.journal
    let frames := [(1, twoSeconds), (2, twoSeconds), (9, strayPicture)]
    let out' := s.publisher.cycle (onlyFile header).outlet frames s.journal
    (out.1.1.failures.map Prod.fst = [] ∧ out'.1.1.failures.map Prod.fst = [2, 9, 1]) ∧
    (out.2.writes header).length = 1 ∧ out'.2.writes header = out.2.writes header ∧
    ∃ d : Channel, (out.1.2.channels.find? 1).map Channel.segmenter = some d.segmenter ∧
      (out'.1.2.channels.find? 1).map Channel.segmenter = some d.segmenter := by
  intro s header out frames out'
  have hsettings : s.publisher.settings = .default := rfl
  have hkind : (s.publisher.channels.find? 1).map Channel.kind = some .audio := by decide +kernel
  obtain ⟨c, hc, hkind⟩ := Option.map_eq_some_iff.1 hkind
  have hheader : c.headerPath s.publisher.settings 1 = header := by
    unfold Channel.headerPath
    rw [hkind, hsettings]
    rfl
  have hok : ∀ {r : Except IoError Unit}, r.isOk = true → r = .ok () := by
    rintro (_ | ⟨⟩) h
    · cases h
    · rfl
  have hfine : ∀ a ∈ out.2.writes header, a.2.isOk = true := by decide +kernel
  have hfine' : ∀ a ∈ out'.2.writes header, a.2.isOk = true := by decide +kernel
  rw [← hheader] at hfine hfine'
  have horigin : s.publisher.origin.isSome = true := by decide +kernel
  obtain ⟨⟨d, -, -, hd, hd', -⟩, hsame, -⟩ := tracks_isolated .obliging .obliging (onlyFile header) .default
    [.addTrack 1 .audio, .addTrack 2 .audio, .cycle [(1, strayPicture)]] [(1, twoSeconds)] frames 1 c horigin hc
    (by simp) (by simp [frames]) (fun frame => by simp [frames]) fun a b ha hb =>
      (hok (hfine a (ha ▸ List.mem_cons_self))).trans (hok (hfine' b (hb ▸ List.mem_cons_self))).symm
  refine ⟨by decide +kernel, by decide +kernel, ?_, d, ?_, ?_⟩
  · rw [← hheader]
    exact hsame.symm
  · dsimp only [out, s]
    exact hd
  · dsimp only [out', s]
    exact hd'

end Presentation
end Packager

import Packager.Proofs.Turns
/-!
# Proofs.HeaderOnce — a track is introduced once

A track is introduced when its initialization segment is written and its codec announced, right after.  In the lifetime of
a track that happens at most once, and the segmenter counts its initialization segment as made exactly when it did
(`introduced_once`).  As long as it did not, every frame that the track can be configured with makes the attempt
(`Channel.feed_introduction`): the segment is too long for the slot, or its file is tried.
-/
namespace Packager

/-! ## What introduces a track -/

/-- Whether an effect introduces a track: its initialization segment is written, wherever the output goes, or its codec is
announced. -/
def Effect.Introduces (id : TrackId) : Effect → Prop
  | wrote path _ (.ok ()) =>
    ∃ folder baseName kind, path = Naming.headerPath folder baseName id (Naming.fileExtension kind)
  | announced (.codec _ rep _) => rep = toString id
  | _ => False

/-- Whether an effect neither starts a lifetime of a track nor introduces the track. -/
structure Effect.Quiet (id : TrackId) (e : Effect) : Prop where
  adds : e.adds id = false
  introduces : ¬e.Introduces id

/-- A journal that grew by nothing that concerns the introduction of a track. -/
inductive Quietly (id : TrackId) (j : Journal) : Journal → Prop where
  | refl : Quietly id j j
  | cons {k : Journal} {e : Effect} (h : Quietly id j k) (he : e.Quiet id) : Quietly id j (e :: k)

/-- Whether a track was introduced exactly once in its lifetime. -/
def IntroducedOnce (settings : Settings) (id : TrackId) (kind : Kind) (j : Journal) : Prop :=
  ∃ later codec content earlier,
    j.lifetime id = later ++ .announced (.codec (Naming.adaptationSet kind) (toString id) codec) ::
      .wrote (Naming.headerPath settings.folder settings.baseName id (Naming.fileExtension kind)) content (.ok ()) ::
      earlier ∧
    ∀ e ∈ later ++ earlier, ¬e.Introduces id

section
variable {settings : Settings} {id id' : TrackId} {kind : Kind} {j k : Journal}

theorem Journal.lifetime_cons {e : Effect} (h : e.adds id = false) : lifetime id (e :: j) = e :: lifetime id j := by
  unfold lifetime
  rw [List.takeWhile_cons, if_pos (by rw [h]; rfl)]

theorem Quietly.has_introduces (h : Quietly id j k) :
    k.Has id (Effect.Introduces id) ↔ j.Has id (Effect.Introduces id) := by
  induction h with
  | refl => exact Iff.rfl
  | cons _ he ih => exact (Journal.has_cons he.adds).trans ((or_iff_right he.introduces).trans ih)

theorem Quietly.introducedOnce (h : Quietly id j k) (ho : IntroducedOnce settings id kind j) :
    IntroducedOnce settings id kind k := by
  induction h with
  | refl => exact ho
  | @cons k e _ he ih =>
    obtain ⟨later, codec, content, earlier, hj, hnone⟩ := ih
    refine ⟨e :: later, codec, content, earlier, by rw [Journal.lifetime_cons he.adds, hj]; rfl, fun x hx => ?_⟩
    rcases List.mem_cons.1 hx with rfl | hx
    · exact he.introduces
    · exact hnone x hx

theorem quiet_failed (path : Path) (content : Bytes) (e : IoError) : (Effect.wrote path content (.error e)).Quiet id :=
  ⟨rfl, fun h => h⟩

theorem quiet_segment (settings : Settings) (id id' : TrackId) (timestamp : Nat) (kind : Kind) (content : Bytes) :
    (Effect.wrote (Naming.segmentPath settings.folder settings.baseName id' timestamp (Naming.fileExtension kind)) content
      (.ok ())).Quiet id := by
  refine ⟨rfl, ?_⟩
  rintro ⟨folder, baseName, kind', h⟩
  exact Naming.headerPath_apart _ _ _ _ _ _ _ _ _ h.symm

theorem Heads.quietly (h : Heads settings id' kind j k) (hne : id' ≠ id) : Quietly id j k := by
  cases h with
  | nothing => exact .refl
  | failed content e => exact Quietly.refl.cons (quiet_failed _ content e)
  | made content codec =>
    refine (Quietly.refl.cons ⟨rfl, ?_⟩).cons ⟨rfl, fun h => hne (toString_inj h)⟩
    rintro ⟨folder, baseName, kind', h⟩
    exact hne (Naming.headerPath_track h)

theorem Emits.quietly {paths : List Path} (h : Emits settings id' kind j paths k) : Quietly id j k := by
  induction h with
  | nothing => exact .refl
  | failed _ timestamp content e ih => exact ih.cons (quiet_failed _ content e)
  | published _ timestamp duration f _ ih =>
    exact (ih.cons (quiet_segment settings id id' timestamp kind f.encode)).cons ⟨rfl, fun h => h⟩

theorem introducedOnce_made (h : ¬j.Has id (Effect.Introduces id)) (codec : String) (content : Bytes) :
    IntroducedOnce settings id kind (.announced (.codec (Naming.adaptationSet kind) (toString id) codec) ::
      .wrote (Naming.headerPath settings.folder settings.baseName id (Naming.fileExtension kind)) content (.ok ()) ::
      j) := by
  refine ⟨[], codec, content, j.lifetime id, ?_, fun e he hi => h ⟨e, he, hi⟩⟩
  rw [Journal.lifetime_cons rfl, Journal.lifetime_cons rfl]
  rfl

end

/-! ## One track -/

theorem Slot.lt_of_load_error {s : Slot} {bytes : Bytes} {sequence timestamp duration : Nat} {failure : Failure}
    (h : s.load bytes sequence timestamp duration = .error failure) : s.capacity < bytes.length := by
  unfold load fill at h
  split at h
  · assumption
  · cases h

/-- A configured segmenter fails to make its initialization segment only when that is too long for the slot: what the
description needs is what the configuration asked for. -/
theorem Segmenter.overflow_of_configure {s g state : Segmenter} {slot slot' : Slot} {failure : Failure}
    (h : s.configure = .ok g) (hfails : g.describe slot = ⟨.error failure, state, slot'⟩) :
    ∃ length, slot.capacity < length ∧ failure = .overflow length slot.capacity := by
  have hconfigured : g.assembly.configured = true := by
    obtain ⟨ticks, phase, rfl⟩ := configure_state h
    rfl
  have hdescription : ∃ r, g.description = .ok r := by
    obtain ⟨a, stream⟩ := s
    cases stream with
    | audio v =>
      rw [configure_audio] at h
      obtain ⟨b, -, rfl⟩ := ok_of_map h
      exact ⟨_, rfl⟩
    | video v =>
      rw [configure_video] at h
      obtain ⟨b, hc, rfl⟩ := ok_of_map h
      obtain ⟨⟨hsps, hpps, -, -⟩, -⟩ := VideoStream.configure_ok hc
      obtain ⟨sps, hsps⟩ := Option.isSome_iff_exists.1 hsps
      obtain ⟨pps, hpps⟩ := Option.isSome_iff_exists.1 hpps
      show ∃ r, VideoStream.description b v = .ok r
      unfold VideoStream.description
      rw [hsps, hpps]
      exact ⟨_, rfl⟩
  obtain ⟨⟨metadata, track⟩, hdescription⟩ := hdescription
  unfold describe Assembly.describe at hfails
  simp only [hconfigured, hdescription, Bool.not_true, Bool.false_eq_true, if_false] at hfails
  split at hfails
  · cases hfails
  · rcases slot.load_cases track.encode 0 0 0 with hl | ⟨t, hl, -⟩
    · have hlong := Slot.lt_of_load_error hl
      rw [hl] at hfails
      cases hfails
      exact ⟨_, hlong, rfl⟩
    · rw [hl] at hfails
      cases hfails

namespace Channel

variable (w : World) (settings : Settings) (id : TrackId)

/-- Whether a track takes a frame and is configured then. -/
def Configures (c : Channel) (frame : Frame) : Prop :=
  ∃ isNew g g', c.segmenter.manage frame = .ok (isNew, g) ∧ g.configure = .ok g'

instance (c : Channel) (frame : Frame) : Decidable (c.Configures frame) :=
  match hm : c.segmenter.manage frame with
  | .error _ => isFalse (by
    rintro ⟨_, _, _, h, -⟩
    cases hm.symm.trans h)
  | .ok (isNew, g) =>
    match hc : g.configure with
    | .error _ => isFalse (by
      rintro ⟨_, _, _, h, h'⟩
      cases hm.symm.trans h
      cases hc.symm.trans h')
    | .ok g' => isTrue ⟨isNew, g, g', hm, hc⟩

/-- What a frame has to do with the introduction of its track: nothing is done about it, which, as long as the track is
not described and can be configured, means that the initialization segment is too long; its file cannot be written; or the
track is introduced. -/
inductive Introduction (c : Channel) (frame : Frame) (j : Journal) (fed : Fed) : Journal → Prop where
  | none (hd : fed.channel.described = c.described) (hr : c.described = false → c.Configures frame →
      ∃ length, settings.segment.maxBytes < length ∧
        fed.failure = some (.overflow length settings.segment.maxBytes)) : Introduction c frame j fed j
  | failed (content : Bytes) (e : IoError) (hb : c.described = false) (hd : fed.channel.described = false)
      (hf : fed.failure = some (.io e)) :
      Introduction c frame j fed (.wrote (c.headerPath settings id) content (.error e) :: j)
  | made (content : Bytes) (codec : String) (hb : c.described = false) (hd : fed.channel.described = true) :
      Introduction c frame j fed (.announced (.codec c.adaptationSet (toString id) codec) ::
        .wrote (c.headerPath settings id) content (.ok ()) :: j)

theorem feed_introduction (c : Channel) (frame : Frame) (j : Journal) :
    let out := c.feed w.outlet settings id frame j
    Introduction settings id c frame j out.1 out.2 := by
  have hcourse := feed_course w settings id c frame j
  generalize c.feed w.outlet settings id frame j = out at hcourse ⊢
  cases hcourse with
  | refused hm =>
    refine .none rfl ?_
    rintro - ⟨isNew, g, g', hmanage, -⟩
    cases hm.symm.trans hmanage
  | @waiting _ g _ hm hc =>
    obtain ⟨-, clock, pending, phase, ha⟩ := Segmenter.manage_state hm
    refine .none (by rw [described, ha]; rfl) ?_
    rintro - ⟨isNew, g₁, g', hmanage, hconfigure⟩
    cases hm.symm.trans hmanage
    cases hc.symm.trans hconfigure
  | rejected hm hc hh =>
    obtain ⟨-, -, hd⟩ := described_keeps hm hc hh
    obtain ⟨length, hlong, rfl⟩ := Segmenter.overflow_of_configure hc hh
    exact .none hd fun _ _ => ⟨length, hlong, rfl⟩
  | @appended _ _ _ state _ hm hc hh =>
    obtain ⟨-, -, hbefore, hd⟩ := described_keeps hm hc hh
    refine .none ((append_keeps ⟨state, c.slot⟩).2.trans (hd.trans hbefore.symm)) fun hn => ?_
    rw [hbefore] at hn
    cases hn
  | @failed _ _ _ state slot e hm hc hh =>
    obtain ⟨-, -, hbefore, -⟩ := described_keeps hm hc hh
    exact .failed slot.data e hbefore rfl rfl
  | @made _ _ _ state slot hm hc hh =>
    obtain ⟨-, -, hbefore, hd⟩ := described_keeps hm hc hh
    exact .made slot.data _ hbefore ((append_keeps ⟨state, c.slot⟩).2.trans hd)

end Channel

namespace Presentation

/-! ## A run -/

/-- What the journal says of the introduction of a track: a track that is there was introduced exactly if it is described,
and no lifetime introduces its track twice. -/
structure Tells (s : Presentation) (id : TrackId) : Prop where
  there : ∀ c, s.publisher.channels.find? id = some c → if c.described then
    IntroducedOnce s.publisher.settings id c.kind s.journal else ¬s.journal.Has id (Effect.Introduces id)
  once : ¬s.journal.Has id (Effect.Introduces id) ∨ ∃ settings kind, IntroducedOnce settings id kind s.journal

variable {w : World} {s t : Presentation} {p q : Publisher} {j k : Journal} {id id' : TrackId} {c d : Channel}

theorem Tells.quiet (h : Tells ⟨p, j⟩ id) (hj : Quietly id j k)
    (hq : ∀ d, q.channels.find? id = some d → q.settings = p.settings ∧
      ∃ c, p.channels.find? id = some c ∧ d.described = c.described ∧ d.kind = c.kind) : Tells ⟨q, k⟩ id := by
  refine ⟨fun d hd => ?_, ?_⟩
  · obtain ⟨hsettings, c, hc, hdescribed, hkind⟩ := hq d hd
    have hthere := h.there c hc
    show if d.described then IntroducedOnce q.settings id d.kind k else ¬k.Has id (Effect.Introduces id)
    rw [hdescribed, hkind, hsettings, hj.has_introduces]
    cases hc : c.described with
    | true =>
      rw [hc] at hthere
      exact hj.introducedOnce hthere
    | false =>
      rw [hc] at hthere
      exact hthere
  · refine h.once.imp (fun hnone => ?_) ?_
    · show ¬k.Has id (Effect.Introduces id)
      rwa [hj.has_introduces]
    · rintro ⟨settings, kind, ho⟩
      exact ⟨settings, kind, hj.introducedOnce ho⟩

theorem Tells.setChannel (h : Tells ⟨p, j⟩ id) (hj : Quietly id j k) (hc : p.channels.find? id' = some c)
    (hdescribed : d.described = c.described) (hkind : d.kind = c.kind) : Tells ⟨p.setChannel id' d, k⟩ id := by
  refine h.quiet hj fun b hb => ⟨rfl, ?_⟩
  obtain ⟨rfl, rfl⟩ | ⟨-, hb⟩ := Publisher.find?_setChannel_cases hb
  · exact ⟨c, hc, hdescribed, hkind⟩
  · exact ⟨b, hb, rfl, rfl⟩

/-- **Taking a frame** introduces its track at most, and only one that is not described yet. -/
theorem Tells.fed (h : Tells ⟨p, j⟩ id) (hc : p.channels.find? id' = some c) (frame : Frame) :
    let fed := c.feed w.outlet p.settings id' frame j
    Tells ⟨p.setChannel id' fed.1.channel, fed.2⟩ id := by
  obtain ⟨hkind, -, hheads⟩ := Channel.feed_heads w p.settings id' c frame j
  have hfed := Channel.feed_introduction w p.settings id' c frame j
  dsimp only
  generalize c.feed w.outlet p.settings id' frame j = fed at hkind hheads hfed ⊢
  obtain ⟨fed, k⟩ := fed
  by_cases hne : id' = id
  · subst hne
    dsimp only at hkind hfed ⊢
    cases hfed with
    | none hd => exact h.setChannel .refl hc hd hkind
    | failed content e hb hd =>
      exact h.setChannel (Quietly.refl.cons (quiet_failed _ content e)) hc (hd.trans hb.symm) hkind
    | made content codec hb hd =>
      -- the track was not described, so the journal does not tell of an introduction yet
      have hnone : ¬j.Has id' (Effect.Introduces id') := by simpa [hb] using h.there c hc
      have ho : IntroducedOnce p.settings id' c.kind _ := introducedOnce_made hnone codec content
      refine ⟨fun d hf => ?_, .inr ⟨p.settings, c.kind, ho⟩⟩
      obtain ⟨-, rfl⟩ | ⟨hne, -⟩ := Publisher.find?_setChannel_cases hf
      · rw [hd, hkind]
        exact ho
      · exact absurd rfl hne
  · refine h.quiet (hheads.quietly hne) fun b hb => ⟨rfl, ?_⟩
    obtain ⟨he, -⟩ | ⟨-, hb⟩ := Publisher.find?_setChannel_cases hb
    · exact absurd he hne
    · exact ⟨b, hb, rfl, rfl⟩

theorem Tells.added (h : Tells ⟨p, j⟩ id) (hd : d.described = false) (kind : Kind) : Tells
    ⟨{ p.setChannel id' d with gate := p.gate.addTrack id' kind },
      .announced (.added (Publisher.representation p.settings id' kind)) :: j⟩ id := by
  by_cases hne : id' = id
  · subst hne
    have hnone : ¬Journal.Has id' (Effect.Introduces id')
        (.announced (.added (Publisher.representation p.settings id' kind)) :: j) :=
      Journal.not_has_added (by simp [Effect.adds, Publisher.representation])
    refine ⟨fun b hb => ?_, .inl hnone⟩
    obtain ⟨-, rfl⟩ | ⟨hne, -⟩ := Publisher.find?_setChannel_cases hb
    · rw [hd]
      exact hnone
    · exact absurd rfl hne
  · have hother : toString id' ≠ toString id := fun hx => hne (toString_inj hx)
    refine h.quiet (Quietly.refl.cons ⟨by simpa [Effect.adds, Publisher.representation] using hother, fun h => h⟩)
      fun b hb => ⟨rfl, ?_⟩
    obtain ⟨he, -⟩ | ⟨-, hb⟩ := Publisher.find?_setChannel_cases hb
    · exact absurd he hne
    · exact ⟨b, hb, rfl, rfl⟩

theorem Move.tells (h : Move w s t) (hs : s.Sane) (ht : Tells s id) : Tells t id := by
  cases h with
  | manifest p j result => exact ht.quiet (Quietly.refl.cons ⟨rfl, fun h => h⟩) fun d hd => ⟨rfl, d, hd, rfl, rfl⟩
  | @added p id' hfree j kind c hc =>
    refine ht.added ?_ kind
    rcases hc with rfl | ⟨origin, rfl⟩ <;> rfl
  | @counted p hnone j origin =>
    refine ht.quiet .refl fun d hd => ⟨rfl, ?_⟩
    rw [SortedMap.find?_mapValues, Option.map_eq_some_iff] at hd
    obtain ⟨c, hc, rfl⟩ := hd
    exact ⟨c, hc, rfl, rfl⟩
  | @fed p id' c hc j frame => exact ht.fed hc frame
  | held => exact ht.quiet .refl fun d hd => ⟨rfl, d, hd, rfl, rfl⟩
  | @discarded p id' c window hc hh hw hv j =>
    exact Tells.quiet (ht.setChannel .refl hc (d := { c with slot := c.slot.clear }) rfl rfl) .refl
      fun d hd => ⟨rfl, d, hd, rfl, rfl⟩
  | @released p id' c window hc hh hw hv j =>
    obtain ⟨f, hf⟩ := hs.sealed id' c hc (by simpa [Channel.isHolding] using hh)
    obtain ⟨hfreed, hout⟩ := Channel.publish_emits w p.settings id' hf j
    have hquiet : Quietly id j (c.publish w.outlet p.settings id' j).2 := by
      rcases hout with ⟨e, -, hemits, -⟩ | ⟨-, hemits, -⟩ <;> exact hemits.quietly
    rw [hfreed]
    exact Tells.quiet (ht.setChannel hquiet hc (d := { c with slot := c.slot.clear }) rfl rfl) .refl
      fun d hd => ⟨rfl, d, hd, rfl, rfl⟩
  | forced => exact ht.quiet .refl fun d hd => ⟨rfl, d, hd, rfl, rfl⟩
  | @drained p id' c hc hk j =>
    obtain ⟨-, -, paths, -, hemits⟩ := Channel.drain_emits w p.settings id' (hs.sealed id' c hc) j
    obtain ⟨hcloses, -⟩ := Channel.drain_closes w p.settings id' c j
    exact ht.setChannel hemits.quietly hc hcloses.described hcloses.kind
  | @rated p id' c hc j bitrate => exact ht.setChannel (Quietly.refl.cons ⟨rfl, fun h => h⟩) hc rfl rfl
  | @removed p id' c hc j =>
    obtain ⟨-, -, paths, -, hemits⟩ := Channel.drain_emits w p.settings id' (hs.sealed id' c hc) j
    refine ht.quiet (hemits.quietly.cons ⟨rfl, fun h => h⟩) fun d hd => ⟨rfl, ?_⟩
    exact ⟨d, (Publisher.find?_erase_cases hd).2, rfl, rfl⟩

theorem Relocated.tells (h : Relocated s t) (ht : Tells s id) : Tells t id := by
  cases h with
  | refused => exact ht
  | failed folder e => exact ht.quiet (Quietly.refl.cons ⟨rfl, fun h => h⟩) fun d hd => ⟨rfl, d, hd, rfl, rfl⟩
  | done folder baseName seconds hnone =>
    refine ht.quiet (.cons (.cons .refl ⟨rfl, fun h => h⟩) ⟨rfl, fun h => h⟩) fun d hd => ?_
    cases hd.symm.trans (hnone id)

theorem run_tells (w : World) (settings : Settings) (ops : List Operation) (id : TrackId) :
    Tells ((start settings).run w ops) id := by
  have hstart : Tells (start settings) id := by
    refine ⟨fun c hf => ?_, .inl ?_⟩
    · cases hf
    · rintro ⟨e, he, -⟩
      cases he
  exact (run_kept (fun _ _ hm hsane h => hm.tells hsane h) (fun _ _ hr h => hr.tells h) hstart ops).2

/-- **In its lifetime a track is introduced once.**  After every run a track counts its initialization segment as made
exactly when its file was written in the lifetime of the track; then no other initialization segment of the track was, and
the codec was announced once, right after; else neither happened.  A lifetime that is over has no second introduction
either.  In the next cycle a track that is not described, and can be configured with its frame, tries again: the
initialization segment is too long for the slot, or its file is tried, and the track is described if that works. -/
theorem introduced_once (w : World) (settings : Settings) (ops : List Operation) :
    let s := (start settings).run w ops
    let p := s.publisher
    (∀ id c, p.channels.find? id = some c →
      (c.described = true ↔ HeaderWritten p.settings id c.kind s.journal) ∧
      if c.described then IntroducedOnce p.settings id c.kind s.journal
      else ¬s.journal.Has id (Effect.Introduces id)) ∧
    (∀ id, ¬s.journal.Has id (Effect.Introduces id) ∨ ∃ settings kind, IntroducedOnce settings id kind s.journal) ∧
    ∀ frames id frame c, (frames.map Prod.fst).Nodup → (id, frame) ∈ frames →
      (p.fixOrigin frames).channels.find? id = some c → c.described = false → c.Configures frame →
      let out := p.cycle w.outlet frames s.journal
      ∃ d, out.1.2.channels.find? id = some d ∧
        ((d.described = false ∧ ∃ length, p.settings.segment.maxBytes < length ∧
            (id, .overflow length p.settings.segment.maxBytes) ∈ out.1.1.failures) ∨
          ∃ later content result earlier, out.2 = later ++ .wrote (c.headerPath p.settings id) content result ::
              (earlier ++ s.journal) ∧
            (d.described = true ↔ result = .ok ()) ∧ ∀ e, result = .error e → (id, .io e) ∈ out.1.1.failures) := by
  intro s p
  have hsound : p.Sound s.journal := run_sound w settings ops
  have htells : ∀ id, Tells s id := run_tells w settings ops
  refine ⟨fun id c hc => ⟨(hsound.tracks id c hc).header, (htells id).there c hc⟩, fun id => (htells id).once, ?_⟩
  intro frames id frame c hnodup hm hc hb hconfigures
  obtain ⟨k, d, ⟨earlier, hk⟩, hd, hsegmenter, ⟨later, hlater⟩, -, hfailure⟩ :=
    Publisher.cycle_turn (w := w) (j := s.journal) hsound.sorted hnodup hm hc
  have hfed := Channel.feed_introduction w p.settings id c frame k
  dsimp only
  generalize p.cycle w.outlet frames s.journal = out at hd hlater hfailure ⊢
  generalize c.feed w.outlet p.settings id frame k = fed at hsegmenter hlater hfailure hfed
  obtain ⟨fed, l⟩ := fed
  have hsame : d.described = fed.channel.described := congrArg (·.assembly.described) hsegmenter
  refine ⟨d, hd, ?_⟩
  dsimp only at hlater hfailure hfed
  subst hk
  cases hfed with
  | none hdescribed hrejected =>
    obtain ⟨length, hlong, hf⟩ := hrejected hb hconfigures
    exact .inl ⟨hsame.trans (hdescribed.trans hb), length, hlong, hfailure _ hf⟩
  | failed content e _ hdescribed hf =>
    refine .inr ⟨later, content, .error e, earlier, hlater.symm, ?_, ?_⟩
    · rw [hsame, hdescribed]
      exact iff_of_false Bool.false_ne_true nofun
    · rintro _ ⟨⟩
      exact hfailure _ hf
  | made content codec _ hdescribed =>
    refine .inr ⟨later ++ [.announced (.codec c.adaptationSet (toString id) codec)], content, .ok (), earlier, ?_, ?_,
      nofun⟩
    · rw [← hlater, List.append_assoc]
      rfl
    · rw [hsame, hdescribed]
      exact iff_of_true rfl rfl

/-- A disk that fails the first file and takes every other. -/
def secondFile : World :=
  { World.obliging with
    writeFile := fun j _ _ =>
      if j.any Effect.isFile then .ok () else .error .isAFolder }

theorem introduced_once_secondFile :
    let s := (start .default).run secondFile [.addTrack 1 .audio, .cycle [(1, twoSeconds)]]
    ¬s.journal.Has 1 (Effect.Introduces 1) ∧
      ∃ d, (s.publisher.cycle secondFile.outlet [(1, twoSeconds)] s.journal).1.2.channels.find? 1 = some d ∧
        d.described = true := by
  have hall := introduced_once secondFile .default [.addTrack 1 .audio, .cycle [(1, twoSeconds)]]
  intro s
  have hstate : (s.publisher.channels.find? 1).any (fun c => !c.described) = true := by decide +kernel
  have hnext : ((s.publisher.fixOrigin [(1, twoSeconds)]).channels.find? 1).any
      (fun c => !c.described && decide (c.Configures twoSeconds)) = true := by decide +kernel
  have hfine : (s.publisher.cycle secondFile.outlet [(1, twoSeconds)] s.journal).1.1.failures.isEmpty = true := by
    decide +kernel
  dsimp only at hall
  generalize hs : (start .default).run secondFile _ = t at hall
  obtain rfl : s = t := hs
  clear_value s
  obtain ⟨hthere, -, hretried⟩ := hall
  obtain ⟨c, hc, hn⟩ := (Option.any_eq_true _ _).1 hstate
  obtain ⟨b, hb, hcan⟩ := (Option.any_eq_true _ _).1 hnext
  obtain ⟨hn', hconfigures⟩ : b.described = false ∧ b.Configures twoSeconds := by simpa using hcan
  refine ⟨by simpa [show c.described = false by simpa using hn] using (hthere 1 c hc).2, ?_⟩
  obtain ⟨d, hd, hcases⟩ :=
    hretried [(1, twoSeconds)] 1 twoSeconds b (by simp) List.mem_cons_self hb hn' hconfigures
  rw [List.isEmpty_iff.1 hfine] at hcases
  refine ⟨d, hd, ?_⟩
  rcases hcases with ⟨-, length, -, hm⟩ | ⟨later, content, result, earlier, -, hdescribed, hfails⟩
  · cases hm
  · cases result with
    | ok => exact hdescribed.2 rfl
    | error e => cases hfails e rfl

end Presentation
end Packager

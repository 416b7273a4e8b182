import Packager.Proofs.GateHistory
import Packager.Proofs.Moves
/-!
# Proofs.VideoStart — what it means that video has started

The gate counts a video track as started when it lets the first segment through, before the file is written.  So video has
started when the file of a segment was tried for every video track, whatever became of it (`videoStarted_iff_tried`); a
track whose files all failed has nothing on the disk and is listed nowhere.
-/
namespace Packager

/-! ## The lifetime of a track -/

/-- Whether something was done in the lifetime of a track. -/
def Journal.Has (id : TrackId) (what : Effect → Prop) (j : Journal) : Prop := ∃ e ∈ j.lifetime id, what e

namespace Effect

/-- Whether an effect is an attempt to write a media segment of a track. -/
def Tries (settings : Settings) (id : TrackId) (kind : Kind) (e : Effect) : Prop :=
  ∃ timestamp content result, e = .wrote
    (Naming.segmentPath settings.folder settings.baseName id timestamp (Naming.fileExtension kind)) content result

def Writes (settings : Settings) (id : TrackId) (kind : Kind) (e : Effect) : Prop :=
  ∃ timestamp content, e = .wrote
    (Naming.segmentPath settings.folder settings.baseName id timestamp (Naming.fileExtension kind)) content (.ok ())

def Announces (id : TrackId) (kind : Kind) (e : Effect) : Prop :=
  ∃ timestamp duration, e = .announced (.segment (Naming.adaptationSet kind) (toString id) timestamp duration)

def isFile : Effect → Bool
  | wrote .. => true
  | _ => false

def isSegment : Effect → Bool
  | announced (.segment ..) => true
  | _ => false

section
variable {settings : Settings} {id : TrackId} {kind : Kind} {e : Effect}

theorem not_putsOut (hf : e.isFile = false) (hs : e.isSegment = false) : ¬e.PutsOut settings id kind := by
  intro h
  cases h with
  | wrote => cases hf
  | announced => cases hs

theorem Tries.putsOut (h : e.Tries settings id kind) : e.PutsOut settings id kind := by
  obtain ⟨timestamp, content, result, rfl⟩ := h
  exact .wrote timestamp content result

theorem Writes.putsOut (h : e.Writes settings id kind) : e.PutsOut settings id kind := by
  obtain ⟨timestamp, content, rfl⟩ := h
  exact .wrote timestamp content (.ok ())

theorem Announces.putsOut (h : e.Announces id kind) : e.PutsOut settings id kind := by
  obtain ⟨timestamp, duration, rfl⟩ := h
  exact .announced timestamp duration

end

end Effect

namespace Journal

variable {id : TrackId} {what : Effect → Prop} {e : Effect} {j : Journal}

theorem has_cons (ha : e.adds id = false) : Has id what (e :: j) ↔ what e ∨ j.Has id what := by
  unfold Has lifetime
  rw [List.takeWhile_cons, if_pos (by rw [ha]; rfl)]
  simp

theorem not_has_added (ha : e.adds id = true) : ¬Has id what (e :: j) := by
  rintro ⟨x, hx, -⟩
  unfold lifetime at hx
  rw [List.takeWhile_cons, if_neg (by rw [ha]; exact Bool.false_ne_true)] at hx
  cases hx

end Journal

/-- Whether a journal says the same as an earlier one of the segments of a track, in its lifetime. -/
def SameSegments (settings : Settings) (id : TrackId) (kind : Kind) (j k : Journal) : Prop :=
  ∀ what : Effect → Prop, (∀ e, what e → e.PutsOut settings id kind) → (k.Has id what ↔ j.Has id what)

section
variable {settings : Settings} {id id' : TrackId} {kind kind' : Kind} {j k : Journal}

theorem SameSegments.refl (settings : Settings) (id : TrackId) (kind : Kind) (j : Journal) :
    SameSegments settings id kind j j := fun _ _ => Iff.rfl

theorem SameSegments.cons {e : Effect} (h : SameSegments settings id kind j k) (ha : e.adds id = false)
    (he : ¬e.PutsOut settings id kind) : SameSegments settings id kind j (e :: k) := by
  intro what hwhat
  rw [Journal.has_cons ha, h what hwhat]
  constructor
  · rintro (hx | hx)
    · exact absurd (hwhat e hx) he
    · exact hx
  · exact .inr

theorem sameSegments_cons {e : Effect} (ha : e.adds id = false) (hf : e.isFile = false) (hs : e.isSegment = false) :
    SameSegments settings id kind j (e :: j) :=
  (SameSegments.refl settings id kind j).cons ha (Effect.not_putsOut hf hs)

/-- An initialization segment is no segment of any track. -/
theorem Heads.sameSegments (h : Heads settings id' kind' j k) : SameSegments settings id kind j k := by
  have hfile : ∀ content result, ¬(Effect.wrote (Naming.headerPath settings.folder settings.baseName id'
      (Naming.fileExtension kind')) content result).PutsOut settings id kind := fun content result =>
    not_putsOut_header settings id id' kind _ content result
  cases h with
  | nothing => exact .refl settings id kind j
  | failed content e => exact (SameSegments.refl settings id kind j).cons rfl (hfile content (.error e))
  | made content codec =>
    exact ((SameSegments.refl settings id kind j).cons rfl (hfile content (.ok ()))).cons rfl
      (Effect.not_putsOut rfl rfl)

/-- What one track publishes says nothing of another. -/
theorem Emits.sameSegments {paths : List Path} (h : Emits settings id' kind' j paths k) (hne : id' ≠ id) :
    SameSegments settings id kind j k := by
  induction h with
  | nothing => exact .refl settings id kind j
  | failed _ timestamp content e ih =>
    refine ih.cons rfl fun hp => hne ?_
    exact ((Effect.PutsOut.wrote timestamp content (.error e) : Effect.PutsOut settings id' kind' _).inj hp).1
  | published _ timestamp duration f hf ih =>
    refine (ih.cons rfl fun hp => hne ?_).cons rfl fun hp => hne ?_
    · exact ((Effect.PutsOut.wrote timestamp f.encode (.ok ()) : Effect.PutsOut settings id' kind' _).inj hp).1
    · exact ((Effect.PutsOut.announced timestamp duration : Effect.PutsOut settings id' kind' _).inj hp).1

end

/-! ## The gate and the journal -/

/-- What the gate and the journal say of a video track: it counts as started once a file was tried, and a file was written
when a segment was announced. -/
structure Followed (settings : Settings) (started : List TrackId) (id : TrackId) (j : Journal) : Prop where
  tried : id ∈ started ↔ j.Has id (Effect.Tries settings id .video)
  written : j.Has id (Effect.Writes settings id .video) ↔ j.Has id (Effect.Announces id .video)

theorem Followed.same {settings : Settings} {started started' : List TrackId} {id : TrackId} {j k : Journal}
    (h : Followed settings started id j) (hs : id ∈ started' ↔ id ∈ started)
    (hj : SameSegments settings id .video j k) : Followed settings started' id k := by
  refine ⟨?_, ?_⟩
  · rw [hs, hj _ fun _ => Effect.Tries.putsOut]
    exact h.tried
  · rw [hj _ fun _ => Effect.Writes.putsOut, hj _ fun _ => Effect.Announces.putsOut]
    exact h.written

section
variable {settings : Settings} {started : List TrackId} {id : TrackId} (timestamp : Nat) (content : Bytes)

/-- A file that could not be written is an attempt all the same. -/
theorem Followed.failed {before : List TrackId} {j : Journal} (h : Followed settings before id j) (hm : id ∈ started)
    (e : IoError) : Followed settings started id (.wrote (Naming.segmentPath settings.folder settings.baseName id timestamp
      (Naming.fileExtension .video)) content (.error e) :: j) := by
  refine ⟨iff_of_true hm ((Journal.has_cons rfl).2 (.inl ⟨timestamp, content, .error e, rfl⟩)), ?_⟩
  rw [Journal.has_cons rfl, Journal.has_cons rfl]
  have hwrites : ¬Effect.Writes settings id .video (.wrote (Naming.segmentPath settings.folder settings.baseName id
      timestamp (Naming.fileExtension .video)) content (.error e)) := by
    rintro ⟨timestamp', content', hx⟩
    cases (Effect.wrote.inj hx).2.2
  have hannounces : ¬Effect.Announces id .video (.wrote (Naming.segmentPath settings.folder settings.baseName id
      timestamp (Naming.fileExtension .video)) content (.error e)) := by
    rintro ⟨timestamp', duration', hx⟩
    cases hx
  rw [or_iff_right hwrites, or_iff_right hannounces]
  exact h.written

theorem followed_published (duration : Nat) (j : Journal) (hm : id ∈ started) : Followed settings started id
    (.announced (.segment (Naming.adaptationSet .video) (toString id) timestamp duration) ::
      .wrote (Naming.segmentPath settings.folder settings.baseName id timestamp (Naming.fileExtension .video)) content
        (.ok ()) :: j) := by
  refine ⟨iff_of_true hm ?_, iff_of_true ?_ ?_⟩
  · exact (Journal.has_cons rfl).2 (.inr ((Journal.has_cons rfl).2 (.inl ⟨timestamp, content, .ok (), rfl⟩)))
  · exact (Journal.has_cons rfl).2 (.inr ((Journal.has_cons rfl).2 (.inl ⟨timestamp, content, rfl⟩)))
  · exact (Journal.has_cons rfl).2 (.inl ⟨timestamp, duration, rfl⟩)

end

namespace Gate

theorem video_judge (g : Gate) (w : Window) : (g.judge w).2.video = g.video := by
  rw [judge_snd]
  split
  · unfold start
    split <;> rfl
  · rfl

theorem mem_started_judge (g : Gate) (w : Window) (id : TrackId) :
    id ∈ (g.judge w).2.started ↔ (w.kind = .video ∧ id = w.track) ∨ id ∈ g.started := by
  rw [judge_snd]
  by_cases hk : w.kind = .video
  · rw [if_pos hk]
    unfold start
    split
    · rename_i hm
      have hm : w.track ∈ g.started := by simpa using hm
      constructor
      · exact .inr
      · rintro (⟨-, rfl⟩ | h)
        · exact hm
        · exact h
    · show id ∈ g.started.insert w.track ↔ _
      rw [List.mem_insert_iff]
      simp [hk]
  · rw [if_neg hk]
    simp [hk]

end Gate

theorem Publisher.window?_eq_some {p : Publisher} {id : TrackId} {c : Channel} {window : Window}
    (h : p.window? id c = some window) : window.track = id ∧ window.kind = c.kind := by
  unfold window? at h
  rw [Option.map_eq_some_iff] at h
  obtain ⟨tickZero, -, rfl⟩ := h
  exact ⟨rfl, rfl⟩

namespace Presentation

/-- What holds of the gate, the tracks and the journal: the gate knows the video tracks, and each is followed. -/
structure Watched (s : Presentation) : Prop where
  video : ∀ id, id ∈ s.publisher.gate.video ↔ ∃ c, s.publisher.channels.find? id = some c ∧ c.kind = .video
  present : ∀ id ∈ s.publisher.gate.started, ∃ c, s.publisher.channels.find? id = some c ∧ c.kind = .video
  followed : ∀ id c, s.publisher.channels.find? id = some c → c.kind = .video →
    Followed s.publisher.settings s.publisher.gate.started id s.journal

variable {w : World} {s t : Presentation} {p : Publisher} {j k : Journal} {id : TrackId} {c d : Channel}

/-- Exchanging a channel for one of its kind leaves the video tracks what they are. -/
theorem exists_video_setChannel (hc : p.channels.find? id = some c) (hk : d.kind = c.kind) (id' : TrackId) :
    (∃ b, (p.setChannel id d).channels.find? id' = some b ∧ b.kind = .video) ↔
      ∃ b, p.channels.find? id' = some b ∧ b.kind = .video := by
  rw [Publisher.find?_setChannel]
  by_cases he : id = id'
  · rw [if_pos he, ← he, hc]
    simp [hk]
  · rw [if_neg he]

/-- A move that only exchanges a channel, and says nothing of the video tracks' segments. -/
theorem Watched.setChannel (h : Watched ⟨p, j⟩) (hc : p.channels.find? id = some c) (hk : d.kind = c.kind)
    (hj : ∀ id' b, p.channels.find? id' = some b → b.kind = .video → SameSegments p.settings id' .video j k) :
    Watched ⟨p.setChannel id d, k⟩ := by
  refine ⟨fun id' => ?_, fun id' hm => ?_, fun id' b hb hkind => ?_⟩
  · exact (h.video id').trans (exists_video_setChannel hc hk id').symm
  · exact (exists_video_setChannel hc hk id').2 (h.present id' hm)
  · obtain ⟨b', hb', hkind'⟩ := (exists_video_setChannel hc hk id').1 ⟨b, hb, hkind⟩
    exact (h.followed id' b' hb' hkind').same Iff.rfl (hj id' b' hb' hkind')

/-- What an audio track publishes says nothing of the video tracks. -/
theorem sameSegments_of_audio {paths : List Path} (hc : p.channels.find? id = some c) (hk : c.kind = .audio)
    (h : Emits p.settings id c.kind j paths k) (id' : TrackId) (b : Channel) (hb : p.channels.find? id' = some b)
    (hv : b.kind = .video) : SameSegments p.settings id' .video j k := by
  refine h.sameSegments fun he => ?_
  rw [← he, hc] at hb
  rw [← Option.some.inj hb, hk] at hv
  cases hv

/-- A gate that does not publish is not changed. -/
theorem judge_of_not_publish {g : Gate} {window : Window} (h : (g.judge window).1 ≠ .publish) :
    (g.judge window).2 = g := by
  rw [Gate.judge_snd]
  by_cases hk : window.kind = .video
  · refine absurd ?_ h
    unfold Gate.judge
    rw [hk]
  · rw [if_neg hk]

/-- **A video segment that is let through** is tried, and announced when it was written. -/
theorem Watched.released {window : Window} (h : Watched ⟨p, j⟩) (hs : p.Sealed) (hc : p.channels.find? id = some c)
    (hh : c.isHolding = true) (hw : p.window? id c = some window) :
    Watched ⟨{ p with gate := (p.gate.judge window).2 }.setChannel id (c.publish w.outlet p.settings id j).1.2,
      (c.publish w.outlet p.settings id j).2⟩ := by
  obtain ⟨htrack, hkind⟩ := Publisher.window?_eq_some hw
  obtain ⟨f, hf⟩ := hs id c hc (by simpa [Channel.isHolding] using hh)
  obtain ⟨hfreed, hout⟩ := Channel.publish_emits w p.settings id hf j
  have hdk : (c.publish w.outlet p.settings id j).1.2.kind = c.kind := by
    rw [hfreed]
    rfl
  generalize hg : (p.gate.judge window).2 = gate
  have hvideo : gate.video = p.gate.video := by rw [← hg, Gate.video_judge]
  have hstarted : ∀ id', id' ∈ gate.started ↔ (c.kind = .video ∧ id' = id) ∨ id' ∈ p.gate.started := fun id' => by
    rw [← hg, Gate.mem_started_judge, hkind, htrack]
  refine ⟨fun id' => ?_, fun id' hm => ?_, fun id' b hb hv => ?_⟩
  · show id' ∈ gate.video ↔ _
    rw [hvideo]
    exact (h.video id').trans (exists_video_setChannel (p := { p with gate }) hc hdk id').symm
  · refine (exists_video_setChannel (p := { p with gate }) hc hdk id').2 ?_
    rcases (hstarted id').1 hm with ⟨hv, rfl⟩ | hm
    · exact ⟨c, hc, hv⟩
    · exact h.present id' hm
  · obtain ⟨b', hb', hv'⟩ := (exists_video_setChannel (p := { p with gate }) hc hdk id').1 ⟨b, hb, hv⟩
    by_cases he : id = id'
    · -- the track itself: its file was tried just now
      subst he
      have hcv : c.kind = .video := by
        rw [hc] at hb'
        rw [Option.some.inj hb']
        exact hv'
      have hmem : id ∈ gate.started := (hstarted id).2 (.inl ⟨hcv, rfl⟩)
      have hpath : c.segmentPath p.settings id = Naming.segmentPath p.settings.folder p.settings.baseName id
          c.slot.timestamp (Naming.fileExtension .video) := by
        unfold Channel.segmentPath
        rw [hcv]
      have hset : c.adaptationSet = Naming.adaptationSet .video := congrArg Naming.adaptationSet hcv
      rcases hout with ⟨e, -, -, hj⟩ | ⟨-, -, hj⟩
      · rw [hj, hpath]
        exact (h.followed id c hc hcv).failed c.slot.timestamp c.slot.data hmem e
      · rw [hj, hpath, hset]
        exact followed_published c.slot.timestamp c.slot.data c.slot.duration j hmem
    · have hsame : SameSegments p.settings id' .video j (c.publish w.outlet p.settings id j).2 := by
        rcases hout with ⟨e, -, hemits, -⟩ | ⟨-, hemits, -⟩ <;> exact hemits.sameSegments he
      refine (h.followed id' b' hb' hv').same ?_ hsame
      show id' ∈ gate.started ↔ _
      rw [hstarted]
      simp [Ne.symm he]

theorem Watched.added {kind : Kind} (h : Watched ⟨p, j⟩) (hfree : p.channels.find? id = none) (hk : c.kind = kind) :
    Watched ⟨{ p.setChannel id c with gate := p.gate.addTrack id kind },
      .announced (.added (Publisher.representation p.settings id kind)) :: j⟩ := by
  have hstarted : (p.gate.addTrack id kind).started = p.gate.started := by cases kind <;> rfl
  have hvideo : ∀ id', id' ∈ (p.gate.addTrack id kind).video ↔ (kind = .video ∧ id' = id) ∨ id' ∈ p.gate.video := by
    intro id'
    cases kind with
    | audio => simp [Gate.addTrack]
    | video =>
      show id' ∈ p.gate.video.insert id ↔ _
      rw [List.mem_insert_iff]
      simp
  have hfind : ∀ id', ({ p.setChannel id c with gate := p.gate.addTrack id kind } : Publisher).channels.find? id' =
      if id = id' then some c else p.channels.find? id' := fun id' => p.find?_setChannel id id' c
  have hnot : id ∉ p.gate.started := by
    intro hm
    obtain ⟨b, hb, -⟩ := h.present id hm
    rw [hfree] at hb
    cases hb
  refine ⟨fun id' => ?_, fun id' hm => ?_, fun id' b hb hv => ?_⟩
  · rw [hfind]
    show id' ∈ (p.gate.addTrack id kind).video ↔ _
    rw [hvideo]
    by_cases he : id = id'
    · rw [if_pos he, ← he]
      have hno : id ∉ p.gate.video := by
        intro hm
        obtain ⟨b, hb, -⟩ := (h.video id).1 hm
        rw [hfree] at hb
        cases hb
      simp [hk, hno]
    · rw [if_neg he]
      have hv := h.video id'
      simp only [Ne.symm he, and_false, false_or]
      exact hv
  · rw [hfind]
    change id' ∈ (p.gate.addTrack id kind).started at hm
    rw [hstarted] at hm
    have he : id ≠ id' := fun he => hnot (he ▸ hm)
    rw [if_neg he]
    exact h.present id' hm
  · show Followed p.settings (p.gate.addTrack id kind).started id' _
    rw [hstarted]
    rw [hfind] at hb
    by_cases he : id = id'
    · -- the lifetime begins, and nothing is in it
      subst he
      have hadds : Effect.adds id (.announced (.added (Publisher.representation p.settings id kind))) = true := by
        simp [Effect.adds, Publisher.representation]
      exact ⟨iff_of_false hnot (Journal.not_has_added hadds),
        iff_of_false (Journal.not_has_added hadds) (Journal.not_has_added hadds)⟩
    · rw [if_neg he] at hb
      refine (h.followed id' b hb hv).same Iff.rfl (sameSegments_cons ?_ rfl rfl)
      have hne : toString id ≠ toString id' := fun hx => he (toString_inj hx)
      simpa [Effect.adds, Publisher.representation] using hne

theorem Watched.removed {paths : List Path} {set : String} (h : Watched ⟨p, j⟩)
    (hemits : Emits p.settings id c.kind j paths k) :
    Watched ⟨{ p with channels := p.channels.erase id, gate := p.gate.removeTrack id },
      .announced (.removed set (toString id)) :: k⟩ := by
  have hstarted : ∀ id', id' ∈ (p.gate.removeTrack id).started ↔ id' ∈ p.gate.started ∧ id' ≠ id := fun id' => by
    simp [Gate.removeTrack]
  have hvideo : ∀ id', id' ∈ (p.gate.removeTrack id).video ↔ id' ∈ p.gate.video ∧ id' ≠ id := fun id' => by
    simp [Gate.removeTrack]
  refine ⟨fun id' => ?_, fun id' hm => ?_, fun id' b hb hv => ?_⟩
  · show id' ∈ (p.gate.removeTrack id).video ↔ ∃ b, (p.channels.erase id).find? id' = some b ∧ _
    rw [hvideo, SortedMap.find?_erase]
    by_cases he : id = id'
    · simp [he]
    · rw [if_neg he]
      simpa [Ne.symm he] using h.video id'
  · obtain ⟨hm, hne⟩ := (hstarted id').1 hm
    show ∃ b, (p.channels.erase id).find? id' = some b ∧ _
    rw [SortedMap.find?_erase, if_neg (Ne.symm hne)]
    exact h.present id' hm
  · obtain ⟨hne, hb⟩ := Publisher.find?_erase_cases hb
    refine (h.followed id' b hb hv).same ?_ ((hemits.sameSegments hne).cons rfl (Effect.not_putsOut rfl rfl))
    show id' ∈ (p.gate.removeTrack id).started ↔ _
    rw [hstarted]
    simp [Ne.symm hne]

theorem Move.watched (h : Move w s t) (hs : s.Sane) (hw : s.Watched) : t.Watched := by
  cases h with
  | manifest p j result =>
    refine ⟨hw.video, hw.present, fun id c hf hk => (hw.followed id c hf hk).same Iff.rfl ?_⟩
    exact sameSegments_cons rfl rfl rfl
  | @added p id hfree j kind c hc =>
    refine hw.added hfree ?_
    rcases hc with rfl | ⟨origin, rfl⟩ <;> cases kind <;> rfl
  | @counted p hnone j origin =>
    have hkinds : ∀ id, (∃ c, (p.channels.mapValues (·.setOrigin origin)).find? id = some c ∧ c.kind = .video) ↔
        ∃ c, p.channels.find? id = some c ∧ c.kind = .video := by
      intro id
      rw [SortedMap.find?_mapValues]
      cases p.channels.find? id with
      | none => simp
      | some b =>
        simp only [Option.map_some, Option.some.injEq, exists_eq_left']
        exact Iff.rfl
    refine ⟨fun id => (hw.video id).trans (hkinds id).symm, fun id hm => (hkinds id).2 (hw.present id hm),
      fun id c hf hk => ?_⟩
    obtain ⟨b, hb, hkb⟩ := (hkinds id).1 ⟨c, hf, hk⟩
    have hfollowed := hw.followed id b hb hkb
    exact ⟨hfollowed.tried, hfollowed.written⟩
  | @fed p id c hc j frame =>
    obtain ⟨hk, -, hheads⟩ := Channel.feed_heads w p.settings id c frame j
    exact hw.setChannel hc hk fun _ _ _ _ => hheads.sameSegments
  | @held p id c window hc hh hwin hv j =>
    have hg : (p.gate.judge window).2 = p.gate := judge_of_not_publish (by rw [hv]; decide)
    rw [hg]
    exact hw
  | @discarded p id c window hc hh hwin hv j =>
    have hg : (p.gate.judge window).2 = p.gate := judge_of_not_publish (by rw [hv]; decide)
    rw [hg]
    exact hw.setChannel hc rfl fun id' _ _ _ => .refl p.settings id' .video j
  | @released p id c window hc hh hwin hv j => exact hw.released hs.sealed hc hh hwin
  | forced => exact ⟨hw.video, hw.present, hw.followed⟩
  | @drained p id c hc hk j =>
    obtain ⟨hkind, -, paths, -, hemits⟩ := Channel.drain_emits w p.settings id (hs.sealed id c hc) j
    exact hw.setChannel hc hkind (sameSegments_of_audio hc hk hemits)
  | @rated p id c hc j bitrate =>
    exact hw.setChannel hc rfl fun _ _ _ _ => sameSegments_cons rfl rfl rfl
  | @removed p id c hc j =>
    obtain ⟨-, -, paths, -, hemits⟩ := Channel.drain_emits w p.settings id (hs.sealed id c hc) j
    exact hw.removed hemits

theorem Relocated.watched (h : Relocated s t) (hw : s.Watched) : t.Watched := by
  cases h with
  | refused => exact hw
  | failed folder e =>
    refine ⟨hw.video, hw.present, fun id c hf hk => (hw.followed id c hf hk).same Iff.rfl ?_⟩
    exact sameSegments_cons rfl rfl rfl
  | done folder baseName seconds hnone hname =>
    refine ⟨fun id => ?_, fun id hm => absurd hm List.not_mem_nil, fun id c hf => ?_⟩
    · refine iff_of_false List.not_mem_nil ?_
      rintro ⟨c, hf, -⟩
      cases hf.symm.trans (hnone id)
    · cases hf.symm.trans (hnone id)

theorem start_watched (settings : Settings) : (start settings).Watched := by
  refine ⟨fun id => iff_of_false List.not_mem_nil ?_, fun id hm => absurd hm List.not_mem_nil, fun id c hf => ?_⟩
  · rintro ⟨c, hf, -⟩
    cases hf
  · cases hf

theorem run_watched (w : World) (settings : Settings) (ops : List Operation) :
    ((start settings).run w ops).Watched :=
  (run_kept (fun _ _ hm hsane hw => hm.watched hsane hw) (fun _ _ hr hw => hr.watched hw) (start_watched settings) ops).2

/-- **When video has started**: there is a video track, and for each of them the file of a segment was tried in its
lifetime, whatever the result.  One was written exactly if a segment of the track was announced. -/
theorem videoStarted_iff_tried (w : World) (settings : Settings) (ops : List Operation) :
    let s := (start settings).run w ops
    let video : TrackId → Prop := fun id => ∃ c, s.publisher.channels.find? id = some c ∧ c.kind = .video
    (s.publisher.gate.videoStarted = true ↔
      (∃ id, video id) ∧ ∀ id, video id → s.journal.Has id (Effect.Tries s.publisher.settings id .video)) ∧
    ∀ id, video id → (s.journal.Has id (Effect.Writes s.publisher.settings id .video) ↔
      s.journal.Has id (Effect.Announces id .video)) := by
  intro s video
  have hw : s.Watched := run_watched w settings ops
  refine ⟨?_, fun id hv => ?_⟩
  · unfold Gate.videoStarted
    rw [Bool.and_eq_true, List.all_eq_true]
    constructor
    · rintro ⟨hne, hall⟩
      obtain ⟨id, hid⟩ := List.exists_mem_of_ne_nil s.publisher.gate.video (by simpa using hne)
      refine ⟨⟨id, (hw.video id).1 hid⟩, fun id hv => ?_⟩
      have hm : id ∈ s.publisher.gate.started := by simpa using hall id ((hw.video id).2 hv)
      obtain ⟨c, hc, hk⟩ := hv
      exact (hw.followed id c hc hk).tried.1 hm
    · rintro ⟨⟨id, hv⟩, hall⟩
      refine ⟨?_, fun id hid => ?_⟩
      · have hm := (hw.video id).2 hv
        cases hg : s.publisher.gate.video with
        | nil => simp [hg] at hm
        | cons => rfl
      · obtain ⟨c, hc, hk⟩ := (hw.video id).1 hid
        simpa using (hw.followed id c hc hk).tried.2 (hall id ⟨c, hc, hk⟩)
  · obtain ⟨c, hc, hk⟩ := hv
    exact (hw.followed id c hc hk).written

/-- A disk that takes one file, the initialization segment, and no other. -/
def oneFile : World :=
  { World.obliging with
    writeFile := fun j _ _ =>
      if j.any Effect.isFile then .error .isAFolder else .ok () }

def pictureAt (pts : Nanos) : Frame :=
  .video ⟨pts, 640, 360,
    [0, 0, 0, 1, 0x67, 66, 0, 1, 0, 0, 0, 1, 0x68, 206, 0, 0, 0, 1, 0x65, 0x88]⟩

/-- Two pictures two seconds apart make a segment; its file cannot be written, yet video has started. -/
theorem started_without_segment :
    let s := (start .default).run oneFile
      [.addTrack 1 .video, .cycle [(1, pictureAt 1000000000)], .cycle [(1, pictureAt 3000000000)]]
    s.publisher.gate.videoStarted = true ∧
    (∃ c, s.publisher.channels.find? 1 = some c ∧ c.kind = .video) ∧
    ¬s.journal.Has 1 (Effect.Writes s.publisher.settings 1 .video) ∧ ¬s.journal.Has 1 (Effect.Announces 1 .video) := by
  intro s
  have hstarted : s.publisher.gate.videoStarted = true := by decide +kernel
  have hnone : s.journal.any Effect.isSegment = false := by decide +kernel
  have hannounces : ¬s.journal.Has 1 (Effect.Announces 1 .video) := by
    rintro ⟨e, hm, timestamp, duration, rfl⟩
    exact List.any_eq_false.1 hnone _ ((List.takeWhile_sublist _).mem hm) rfl
  have hvideo : s.publisher.gate.video = [1] := by decide +kernel
  have hw : s.Watched := run_watched _ _ _
  clear_value s
  obtain ⟨c, hc, hk⟩ := (hw.video 1).1 (by rw [hvideo]; exact List.mem_singleton_self 1)
  refine ⟨hstarted, ⟨c, hc, hk⟩, fun hwrites => ?_, hannounces⟩
  exact hannounces ((hw.followed 1 c hc hk).written.1 hwrites)

end Presentation
end Packager

import Packager.Proofs.TrackHeaders
/-!
# Proofs.HeaderFirst — which segments are put out after their initialization segment

Every track of a publisher keeps to its initialization segment (`Publisher.Sound`).  What a cycle publishes was held in a
slot, so its track is described.  An operation that closes a track does not ask: it closes the frames that wait as well,
and what it puts out has its initialization segment exactly when the track was described (`header_written_iff`).
-/
namespace Packager
namespace Publisher

variable {w : World} {p q : Publisher} {j k : Journal}

/-- Whether every track keeps to its initialization segment. -/
structure Sound (p : Publisher) (j : Journal) : Prop where
  sorted : p.channels.Sorted
  tracks : ∀ id c, p.channels.find? id = some c → c.Matches p.settings id j

theorem Sound.same (h : p.Sound j) (hs : SameHeaders p.settings j k) : p.Sound k :=
  ⟨h.sorted, fun id c hf => (h.tracks id c hf).same hs⟩

theorem Sound.manifest (h : p.Sound j) (result : Except Failure Unit) : p.Sound (.manifest result :: j) :=
  h.same ((SameHeaders.refl p.settings j).cons fun _ h => h)

theorem Sound.setChannel (h : p.Sound j) {id : TrackId} {d : Channel} (hd : d.Matches p.settings id k)
    (others : ∀ id', id' ≠ id → ∀ kind,
      HeaderWritten p.settings id' kind k ↔ HeaderWritten p.settings id' kind j) :
    (p.setChannel id d).Sound k := by
  refine ⟨h.sorted.insert id d, fun id' c hf => ?_⟩
  unfold Publisher.setChannel at hf
  rw [SortedMap.find?_insert] at hf
  by_cases he : id = id'
  · rw [if_pos he] at hf
    cases hf
    exact he ▸ hd
  · rw [if_neg he] at hf
    exact ⟨(h.tracks id' c hf).header.trans (others id' (Ne.symm he) c.kind).symm, (h.tracks id' c hf).empty⟩

theorem Sound.mem_entries (h : p.Sound j) {e : TrackId × Channel} (hm : e ∈ p.channels.entries) :
    p.channels.find? e.1 = some e.2 := (SortedMap.mem_entries h.sorted).1 hm

/-- Whether a publisher has only tracks that another has, of the same kinds, and the same settings. -/
def Within (p q : Publisher) : Prop :=
  q.settings = p.settings ∧
  ∀ id c, q.channels.find? id = some c → ∃ b, p.channels.find? id = some b ∧ b.kind = c.kind

namespace Within

theorem refl (p : Publisher) : p.Within p := ⟨rfl, fun _ c h => ⟨c, h, rfl⟩⟩

theorem trans {r : Publisher} (h : p.Within q) (h' : q.Within r) : p.Within r := by
  refine ⟨h'.1.trans h.1, fun id c hf => ?_⟩
  obtain ⟨b, hb, hk⟩ := h'.2 id c hf
  obtain ⟨a, ha, hk'⟩ := h.2 id b hb
  exact ⟨a, ha, hk'.trans hk⟩

theorem setChannel (h : p.Within q) {id : TrackId} {b d : Channel} (hb : p.channels.find? id = some b)
    (hk : b.kind = d.kind) : p.Within (q.setChannel id d) := by
  refine ⟨h.1, fun id' c hf => ?_⟩
  unfold Publisher.setChannel at hf
  rw [SortedMap.find?_insert] at hf
  by_cases he : id = id'
  · rw [if_pos he] at hf
    cases hf
    exact ⟨b, he ▸ hb, hk⟩
  · rw [if_neg he] at hf
    exact h.2 id' c hf

end Within

/-! ## A cycle -/

/-- Whether a track of a kind is there and its initialization segment was written. -/
def Headed (p : Publisher) (id : TrackId) (kind : Kind) (j : Journal) : Prop :=
  (∃ c, p.channels.find? id = some c ∧ c.kind = kind) ∧ HeaderWritten p.settings id kind j

theorem fixOrigin_sound (frames : List (TrackId × Frame)) (h : p.Sound j) :
    (p.fixOrigin frames).Sound j ∧ p.Within (p.fixOrigin frames) := by
  unfold fixOrigin
  split
  · rename_i origin _ _
    have hback : ∀ id c, (p.channels.mapValues (·.setOrigin origin)).find? id = some c →
        ∃ b, p.channels.find? id = some b ∧ c = b.setOrigin origin := by
      intro id c hf
      rw [SortedMap.find?_mapValues, Option.map_eq_some_iff] at hf
      obtain ⟨b, hb, rfl⟩ := hf
      exact ⟨b, hb, rfl⟩
    refine ⟨⟨h.sorted.mapValues _, fun id c hf => ?_⟩, rfl, fun id c hf => ?_⟩
    · obtain ⟨b, hb, rfl⟩ := hback id c hf
      exact (h.tracks id b hb).of rfl rfl fun _ => ⟨rfl, rfl⟩
    · obtain ⟨b, hb, rfl⟩ := hback id c hf
      exact ⟨b, hb, rfl⟩
  · exact ⟨h, .refl p⟩

theorem feed_sound (acc : CycleReport × Publisher) (entry : TrackId × Frame) (h : acc.2.Sound j) :
    let out := feed w.outlet acc entry j
    out.1.2.Sound out.2 ∧ acc.2.Within out.1.2 ∧ ∀ allowed, Grown acc.2.settings allowed j out.2 := by
  obtain ⟨report, p⟩ := acc
  obtain ⟨id, frame⟩ := entry
  unfold feed
  dsimp only
  cases hc : p.channels.find? id with
  | none => exact ⟨h, .refl p, fun _ => .refl⟩
  | some c =>
    have hfeeds := Channel.feed_feeds w p.settings id (h.tracks id c hc) frame
    exact ⟨h.setChannel hfeeds.kept hfeeds.others, (Within.refl p).setChannel hc hfeeds.kind.symm, hfeeds.grown⟩

theorem feedAll_sound (frames : List (TrackId × Frame)) (report : CycleReport) (h : p.Sound j) :
    let out := frames.foldlM (feed w.outlet) (report, p) j
    out.1.2.Sound out.2 ∧ p.Within out.1.2 ∧ ∀ allowed, Grown p.settings allowed j out.2 := by
  let inv : List (TrackId × Frame) → CycleReport × Publisher → Journal → Prop := fun _ acc k =>
    acc.2.Sound k ∧ p.Within acc.2 ∧ ∀ allowed, Grown p.settings allowed j k
  refine StateM.foldlM_invariant inv ?_ frames (report, p) j ⟨h, .refl p, fun _ => .refl⟩
  rintro entry rest acc k ⟨hsound, hwithin, hgrown⟩
  obtain ⟨hsound', hwithin', hgrown'⟩ := feed_sound (w := w) acc entry hsound
  rw [hwithin.1] at hgrown'
  exact ⟨hsound', hwithin.trans hwithin', fun allowed => (hgrown allowed).trans (hgrown' allowed)⟩

/-- Whether an entry is of a track that keeps to its initialization segment and holds a segment. -/
structure Held (p : Publisher) (j : Journal) (entry : TrackId × Channel) : Prop where
  kept : entry.2.Matches p.settings entry.1 j
  holding : entry.2.isHolding = true
  present : ∃ b, p.channels.find? entry.1 = some b ∧ b.kind = entry.2.kind

theorem Held.header {entry : TrackId × Channel} (h : p.Held j entry) :
    HeaderWritten p.settings entry.1 entry.2.kind j := by
  rw [← h.kept.header]
  cases hd : entry.2.described with
  | true => rfl
  | false =>
    obtain ⟨hs, -⟩ := h.kept.empty hd
    have hh := h.holding
    unfold Channel.isHolding at hh
    rw [hs] at hh
    cases hh

theorem Held.same {entry : TrackId × Channel} (h : p.Held j entry) (hs : SameHeaders p.settings j k) :
    p.Held k entry := ⟨h.kept.same hs, h.holding, h.present⟩

/-- **What the gate lets out is headed.** -/
theorem release_sound (acc : CycleReport × Publisher) {entry : TrackId × Channel} (hw : p.Within acc.2)
    (h : acc.2.Sound j) (he : p.Held j entry) :
    let out := release w.outlet acc entry j
    out.1.2.Sound out.2 ∧ p.Within out.1.2 ∧ SameHeaders p.settings j out.2 ∧ Grown p.settings p.Headed j out.2 := by
  obtain ⟨report, q⟩ := acc
  obtain ⟨id, c⟩ := entry
  obtain ⟨b, hb, hkind⟩ := he.present
  have hsettings : q.settings = p.settings := hw.1
  have hheader : HeaderWritten p.settings id c.kind j := he.header
  have hgate : ∀ gate, ({ q with gate } : Publisher).Sound j := fun gate => ⟨h.sorted, h.tracks⟩
  have hfreed : Channel.Matches q.settings id j { c with slot := c.slot.clear } := by
    rw [hsettings]
    exact ⟨he.kept.header, fun hn => ⟨rfl, (he.kept.empty hn).2⟩⟩
  have hstill : ∀ gate, p.Within { q with gate } := fun gate => hw
  unfold release
  dsimp only
  cases q.window? id c with
  | none => exact ⟨h, hw, .refl p.settings j, .refl⟩
  | some window =>
    dsimp only
    generalize q.gate.judge window = judged
    obtain ⟨verdict, gate⟩ := judged
    cases verdict with
    | hold => exact ⟨hgate gate, hw, .refl p.settings j, .refl⟩
    | discard =>
      exact ⟨(hgate gate).setChannel hfreed fun _ _ _ => Iff.rfl, (hstill gate).setChannel hb hkind,
        .refl p.settings j, .refl⟩
    | publish =>
      obtain ⟨hcloses, heq⟩ := Channel.publish_closes w q.settings id c j
      simp only [StateM.bind_apply]
      generalize c.publish w.outlet q.settings id j = out at hcloses heq ⊢
      obtain ⟨⟨result, d⟩, k⟩ := out
      dsimp only at hcloses heq ⊢
      subst heq
      refine ⟨?_, (hstill gate).setChannel hb hkind, hsettings ▸ hcloses.same, ?_⟩
      · exact (hgate gate).setChannel (hfreed.same hcloses.same) fun id' _ kind => hcloses.same id' kind
      · rw [← hsettings]
        refine hcloses.grown _ fun l hl => ⟨⟨b, hb, hkind⟩, ?_⟩
        rw [← hsettings, hl id c.kind, hsettings]
        exact hheader

theorem releaseAll_sound (entries : List (TrackId × Channel)) (report : CycleReport) (h : p.Sound j)
    (he : ∀ e ∈ entries, p.Held j e) :
    let out := entries.foldlM (release w.outlet) (report, p) j
    out.1.2.Sound out.2 ∧ Grown p.settings p.Headed j out.2 := by
  -- releasing one segment writes no initialization segment, so the entries still to come stay as they are listed
  let inv : List (TrackId × Channel) → CycleReport × Publisher → Journal → Prop := fun rest acc k =>
    (acc.2.Sound k ∧ p.Within acc.2 ∧ Grown p.settings p.Headed j k) ∧ ∀ e ∈ rest, p.Held k e
  have hstart : inv entries (report, p) j := ⟨⟨h, .refl p, .refl⟩, he⟩
  obtain ⟨⟨hsound, -, hgrown⟩, -⟩ := StateM.foldlM_invariant (f := release w.outlet) inv (by
    rintro entry rest acc k ⟨⟨hsound, hwithin, hgrown⟩, hheld⟩
    obtain ⟨hsound', hwithin', hsame, hgrown'⟩ := release_sound acc hwithin hsound (hheld entry List.mem_cons_self)
    exact ⟨⟨hsound', hwithin', hgrown.trans hgrown'⟩, fun e hm => (hheld e (List.mem_cons_of_mem entry hm)).same hsame⟩)
    entries (report, p) j hstart
  exact ⟨hsound, hgrown⟩

theorem ready_held (h : p.Sound j) : ∀ e ∈ p.ready, p.Held j e := by
  intro e hm
  obtain ⟨hentry, hholding⟩ : e ∈ p.channels.entries ∧ e.2.isHolding = true := by
    unfold ready at hm
    rcases List.mem_append.1 hm with hm | hm <;> exact List.mem_filter.1 (List.mem_filter.1 hm).1
  exact ⟨h.tracks _ _ (h.mem_entries hentry), hholding, e.2, h.mem_entries hentry, rfl⟩

theorem Headed.of_within {id : TrackId} {kind : Kind} (hw : p.Within q) (h : q.Headed id kind j) : p.Headed id kind j := by
  obtain ⟨⟨c, hc, hk⟩, hh⟩ := h
  obtain ⟨b, hb, hkb⟩ := hw.2 id c hc
  rw [hw.1] at hh
  exact ⟨⟨b, hb, hkb.trans hk⟩, hh⟩

/-- **In a cycle every segment is put out after its initialization segment.** -/
theorem cycle_sound (frames : List (TrackId × Frame)) (h : p.Sound j) :
    let out := p.cycle w.outlet frames j
    out.1.2.Sound out.2 ∧ Grown p.settings p.Headed j out.2 := by
  obtain ⟨hsound, hwithin⟩ := fixOrigin_sound frames h
  obtain ⟨hsound', hwithin', hquiet⟩ := feedAll_sound (w := w) frames .empty hsound
  rw [hwithin.1] at hquiet
  unfold cycle
  simp only [StateM.bind_apply]
  generalize frames.foldlM (feed w.outlet) (.empty, p.fixOrigin frames) j = fed at hsound' hwithin' hquiet ⊢
  have hfed : p.Within fed.1.2 := hwithin.trans hwithin'
  obtain ⟨hsound'', hgrown⟩ := releaseAll_sound (w := w) fed.1.2.ready fed.1.1 hsound' (ready_held hsound')
  rw [hfed.1] at hgrown
  have hall := (hquiet p.Headed).trans (hgrown.mono fun _ _ _ hh => hh.of_within hfed)
  generalize fed.1.2.ready.foldlM (release w.outlet) (fed.1.1, fed.1.2) fed.2 = out at hsound'' hall ⊢
  cases out.1.1.published.isEmpty with
  | true => exact ⟨hsound'', hall⟩
  | false =>
    simp only [Bool.false_eq_true, if_false, StateM.bind_apply, World.writeManifest_apply]
    cases w.writeManifest out.2 with
    | ok => exact ⟨hsound''.manifest _, hall.manifest _⟩
    | error failure => exact ⟨hsound''.manifest _, hall.manifest _⟩

/-! ## Closing tracks -/

/-- Whether a track of a kind is there, and its initialization segment was written exactly when it is described. -/
def Noted (p : Publisher) (id : TrackId) (kind : Kind) (j : Journal) : Prop :=
  ∃ c, p.channels.find? id = some c ∧ c.kind = kind ∧ (HeaderWritten p.settings id kind j ↔ c.described = true)

/-- **Draining a track** leaves it as described as it was. -/
theorem drained {id : TrackId} {c : Channel} (hc : p.channels.find? id = some c) (h : c.Matches p.settings id j) :
    let out := c.drain w.outlet p.settings id j
    out.1.2.Matches p.settings id out.2 ∧ SameHeaders p.settings j out.2 ∧ Grown p.settings p.Noted j out.2 := by
  obtain ⟨hcloses, hslot, hfragment⟩ := Channel.drain_closes w p.settings id c j
  refine ⟨⟨?_, fun _ => ⟨hslot, hfragment⟩⟩, hcloses.same, hcloses.grown _ fun l hl => ⟨c, hc, rfl, ?_⟩⟩
  · rw [hcloses.described, hcloses.kind, hcloses.same id c.kind]
    exact h.header
  · rw [hl id c.kind]
    exact h.header.symm

theorem removeTrack_sound (id : TrackId) (h : p.Sound j) :
    let out := p.removeTrack w.outlet id j
    out.1.2.Sound out.2 ∧ out.1.2.settings = p.settings ∧
      (∀ id' c, out.1.2.channels.find? id' = some c → p.channels.find? id' = some c) ∧
      Grown p.settings p.Noted j out.2 := by
  unfold removeTrack
  cases hc : p.channels.find? id with
  | none => exact ⟨h, rfl, fun _ _ hf => hf, .refl⟩
  | some c =>
    obtain ⟨-, hsame, hgrown⟩ := drained (w := w) hc (h.tracks id c hc)
    simp only [StateM.bind_apply, World.announce_apply, World.writeManifest_apply]
    have hback : ∀ id' c', (p.channels.erase id).find? id' = some c' → p.channels.find? id' = some c' := by
      intro id' c' hf
      rw [SortedMap.find?_erase] at hf
      by_cases he : id = id'
      · rw [if_pos he] at hf
        cases hf
      · rw [if_neg he] at hf
        exact hf
    refine ⟨⟨h.sorted.erase id, fun id' c' hf => ?_⟩, rfl, hback, (hgrown.removed _ _).manifest _⟩
    exact (h.tracks id' c' (hback id' c' hf)).same (.cons (.cons hsame fun _ h => h) fun _ h => h)

/-- **A track that waits with frames is put out when it is removed**, described or not. -/
theorem removeTrack_journal {id : TrackId} {c : Channel} (hc : p.channels.find? id = some c)
    (hh : c.isHolding = false) (hf : c.finish.1 = true)
    (hw : w.writeFile j (c.finish.2.segmentPath p.settings id) c.finish.2.slot.data = .ok ()) :
    ∃ result timestamp duration, (p.removeTrack w.outlet id j).2 =
      .manifest result :: .announced (.removed c.adaptationSet (toString id)) ::
      .announced (.segment c.adaptationSet (toString id) timestamp duration) ::
      .wrote (c.finish.2.segmentPath p.settings id) c.finish.2.slot.data (.ok ()) :: j := by
  have hkind : c.finish.2.adaptationSet = c.adaptationSet :=
    congrArg Naming.adaptationSet (c.segmenter.finish_keeps c.slot).1
  have hdrain : (c.drain w.outlet p.settings id j).2 =
      .announced (.segment c.adaptationSet (toString id) c.finish.2.slot.timestamp c.finish.2.slot.duration) ::
      .wrote (c.finish.2.segmentPath p.settings id) c.finish.2.slot.data (.ok ()) :: j := by
    rw [Channel.drain_apply, hh]
    unfold Channel.publishIf Channel.drain.publishOne Channel.publish Slot.writeTo
    simp only [Bool.false_eq_true, if_false, hf, if_true, StateM.bind_apply, World.writeFile_apply, hw]
    rw [← hkind]
    rfl
  unfold removeTrack
  simp only [hc, StateM.bind_apply, World.announce_apply, World.writeManifest_apply, hdrain]
  exact ⟨_, _, _, rfl⟩

theorem shutdown_sound (h : p.Sound j) :
    let out := p.shutdown w.outlet j
    out.1.2.Sound out.2 ∧ Grown p.settings p.Noted j out.2 := by
  let inv : List TrackId → Publisher → Journal → Prop := fun _ q k =>
    q.Sound k ∧ q.settings = p.settings ∧
      (∀ id c, q.channels.find? id = some c → p.channels.find? id = some c) ∧ Grown p.settings p.Noted j k
  obtain ⟨hsound, -, -, hgrown⟩ := StateM.foldlM_invariant (f := fun q id => Prod.snd <$> q.removeTrack w.outlet id)
    inv (by
      rintro id rest q k ⟨hsound, hsettings, hback, hgrown⟩
      obtain ⟨hsound', hsettings', hback', hgrown'⟩ := removeTrack_sound (w := w) id hsound
      refine ⟨hsound', hsettings'.trans hsettings, fun id' c hf => hback id' c (hback' id' c hf), hgrown.trans ?_⟩
      rw [hsettings] at hgrown'
      refine hgrown'.mono ?_
      rintro id' kind l ⟨c, hc, hk, hn⟩
      rw [hsettings] at hn
      exact ⟨c, hback id' c hc, hk, hn⟩) p.channels.keys p j ⟨h, rfl, fun _ _ hf => hf, .refl⟩
  exact ⟨hsound.manifest _, hgrown.manifest _⟩

/-- Draining the audio tracks is a loop over them, and then a write of the manifest if anything was published. -/
theorem drainAudio_eq (p : Publisher) (j : Journal) : p.drainAudio w.outlet j =
    let out := (p.channels.entries.filter (·.2.kind = .audio)).foldlM (drainAudio.drainOne w.outlet)
      (0, { p with gate := p.gate.forceAudioOnly }) j
    if out.1.1 = 0 then ((.ok 0, out.1.2), out.2)
    else (((w.writeManifest out.2).map fun _ => out.1.1, out.1.2), .manifest (w.writeManifest out.2) :: out.2) := by
  unfold drainAudio
  simp only [StateM.bind_apply]
  generalize List.foldlM (drainAudio.drainOne w.outlet) _ _ j = out
  by_cases hwritten : out.1.1 = 0
  · rw [if_pos hwritten, if_pos hwritten]
    rfl
  · rw [if_neg hwritten, if_neg hwritten]
    simp only [StateM.bind_apply, World.writeManifest_apply]
    cases w.writeManifest out.2 <;> rfl

theorem drainAudio_publisher (p : Publisher) (j : Journal) : (p.drainAudio w.outlet j).1.2 =
    ((p.channels.entries.filter (·.2.kind = .audio)).foldlM (drainAudio.drainOne w.outlet)
      (0, { p with gate := p.gate.forceAudioOnly }) j).1.2 := by
  rw [drainAudio_eq]
  dsimp only
  split <;> rfl

theorem drainAudio_sound (h : p.Sound j) :
    let out := p.drainAudio w.outlet j
    out.1.2.Sound out.2 ∧ Grown p.settings p.Noted j out.2 := by
  -- the list of the entries is older than what draining the first ones makes of the publisher
  let inv : List (TrackId × Channel) → Nat × Publisher → Journal → Prop := fun rest acc k =>
    (acc.2.Sound k ∧ acc.2.settings = p.settings ∧ Grown p.settings p.Noted j k) ∧
    ∀ e ∈ rest, p.channels.find? e.1 = some e.2 ∧ e.2.Matches p.settings e.1 k
  have hstart : inv (p.channels.entries.filter (·.2.kind = .audio)) (0, { p with gate := p.gate.forceAudioOnly }) j := by
    refine ⟨⟨⟨h.sorted, h.tracks⟩, rfl, .refl⟩, fun e he => ?_⟩
    have hf := h.mem_entries (List.mem_filter.1 he).1
    exact ⟨hf, h.tracks _ _ hf⟩
  obtain ⟨⟨hsound, -, hgrown⟩, -⟩ := StateM.foldlM_invariant (f := drainAudio.drainOne w.outlet) inv (by
    rintro ⟨id, c⟩ rest ⟨count, q⟩ k ⟨⟨hsound, hsettings, hgrown⟩, hrest⟩
    obtain ⟨hc, hm⟩ := hrest (id, c) List.mem_cons_self
    obtain ⟨hm', hsame, hgrown'⟩ := drained (w := w) hc hm
    obtain ⟨settings, channels, gate, origin⟩ := q
    subst hsettings
    exact ⟨⟨hsound.setChannel hm' fun id' _ kind => hsame id' kind, rfl, hgrown.trans hgrown'⟩, fun e he =>
      ⟨(hrest e (List.mem_cons_of_mem _ he)).1, (hrest e (List.mem_cons_of_mem _ he)).2.same hsame⟩⟩) _ _ j hstart
  rw [drainAudio_eq]
  dsimp only
  generalize List.foldlM (drainAudio.drainOne w.outlet) _ _ j = out at hsound hgrown ⊢
  by_cases hwritten : out.1.1 = 0
  · rw [if_pos hwritten]
    exact ⟨hsound, hgrown⟩
  · rw [if_neg hwritten]
    exact ⟨hsound.manifest _, hgrown.manifest _⟩

theorem addTrack_sound (id : TrackId) (kind : Kind) (h : p.Sound j) :
    let out := p.addTrack w.outlet id kind j
    out.1.2.Sound out.2 ∧ ∀ allowed, Grown p.settings allowed j out.2 := by
  unfold addTrack
  cases p.channels.contains id with
  | true => exact ⟨h, fun _ => .refl⟩
  | false =>
    simp only [Bool.false_eq_true, if_false, StateM.bind_apply, World.announce_apply]
    have hadded : ∀ c : Channel, c.described = false → c.slot.isEmpty = true →
        c.segmenter.assembly.fragment.isEmpty = true →
        c.Matches p.settings id (.announced (.added (representation p.settings id kind)) :: j) := by
      intro c hd hslot hfragment
      refine ⟨⟨fun ht => ?_, fun hw => absurd hw (not_headerWritten_added rfl)⟩, fun _ => ⟨hslot, hfragment⟩⟩
      rw [hd] at ht
      cases ht
    have hothers : ∀ id', id' ≠ id → ∀ kind', HeaderWritten p.settings id' kind'
        (.announced (.added (representation p.settings id kind)) :: j) ↔ HeaderWritten p.settings id' kind' j :=
      fun id' hne _ => headerWritten_cons fun he => hne (toString_inj he).symm
    refine ⟨?_, fun _ => .step .refl nofun⟩
    cases p.origin with
    | none =>
      have hset := h.setChannel (hadded (.start p.settings id kind) rfl rfl rfl) hothers
      exact ⟨hset.sorted, hset.tracks⟩
    | some origin =>
      have hset := h.setChannel (hadded ((Channel.start p.settings id kind).setOrigin origin) rfl rfl rfl) hothers
      exact ⟨hset.sorted, hset.tracks⟩

theorem setBitrate_sound (id : TrackId) (kilobits : Nat) (h : p.Sound j) :
    let out := p.setBitrate w.outlet id kilobits j
    out.1.2.Sound out.2 ∧ ∀ allowed, Grown p.settings allowed j out.2 := by
  unfold setBitrate
  cases hc : p.channels.find? id with
  | none => exact ⟨h, fun _ => .refl⟩
  | some c =>
    have hsame : SameHeaders p.settings j (.announced (.bitrate c.adaptationSet (toString id)
        (min (kilobits * 1000) highestBitrate)) :: j) := (SameHeaders.refl p.settings j).cons fun _ h => h
    have hset : Channel.Matches p.settings id j
        { c with segmenter := c.segmenter.setBitrate (min (kilobits * 1000) highestBitrate) } :=
      (h.tracks id c hc).of rfl rfl fun _ => ⟨rfl, rfl⟩
    exact ⟨h.setChannel (hset.same hsame) fun id' _ kind => hsame id' kind, fun _ => .step .refl nofun⟩

theorem checkConfigure_eq_ok (baseName : String) (seconds : Nat) : p.checkConfigure baseName seconds = .ok () ↔
    (∀ id, p.channels.find? id = none) ∧ Settings.isBaseName baseName = true ∧ 0 < seconds := by
  have hnone : p.channels.isEmpty = true ↔ ∀ id, p.channels.find? id = none := by
    unfold SortedMap.isEmpty SortedMap.find?
    cases p.channels.entries with
    | nil => simp
    | cons e rest => exact iff_of_false Bool.false_ne_true fun h => by simpa using h e.1
  rw [← hnone]
  unfold checkConfigure Settings.checkBaseName
  cases p.channels.isEmpty <;> cases Settings.isBaseName baseName <;> by_cases hs : seconds = 0 <;> simp [hs]
  omega

theorem find?_of_checkConfigure {baseName : String} {seconds : Nat} (h : p.checkConfigure baseName seconds = .ok ())
    (id : TrackId) : p.channels.find? id = none := ((checkConfigure_eq_ok baseName seconds).1 h).1 id

theorem configure_sound (folder : Path) (baseName : String) (seconds : Nat) (h : p.Sound j) :
    let out := p.configure w.outlet folder baseName seconds j
    out.1.2.Sound out.2 ∧ ∀ allowed, Grown p.settings allowed j out.2 := by
  unfold configure
  cases hc : p.checkConfigure baseName seconds with
  | error failure => exact ⟨h, fun _ => .refl⟩
  | ok =>
    simp only [StateM.bind_apply, World.createFolders_apply]
    cases w.createFolders j folder with
    | error e => exact ⟨h.same ((SameHeaders.refl p.settings j).cons fun _ h => h), fun _ => .step .refl nofun⟩
    | ok =>
      refine ⟨⟨h.sorted, fun id c hf => ?_⟩, fun _ => .step (.step .refl nofun) nofun⟩
      cases hf.symm.trans (find?_of_checkConfigure hc id)

end Publisher

/-! ## Runs -/

namespace Presentation

/-- What holds of a track where an operation puts a segment of it out. -/
def Ordered (op : Operation) (p : Publisher) (id : TrackId) (kind : Kind) (j : Journal) : Prop :=
  ∃ c, p.channels.find? id = some c ∧ c.kind = kind ∧
    (HeaderWritten p.settings id kind j ↔ op.tearsDown = false ∨ c.described = true)

section
variable {op : Operation} {p : Publisher} {id : TrackId} {kind : Kind} {j : Journal}

theorem ordered_of_headed (h : op.tearsDown = false) (hh : p.Headed id kind j) : Ordered op p id kind j := by
  obtain ⟨⟨c, hc, hk⟩, hheader⟩ := hh
  exact ⟨c, hc, hk, fun _ => .inl h, fun _ => hheader⟩

theorem ordered_of_noted (h : op.tearsDown = true) (hn : p.Noted id kind j) : Ordered op p id kind j := by
  obtain ⟨c, hc, hk, hiff⟩ := hn
  refine ⟨c, hc, hk, hiff.trans ⟨.inr, fun hor => hor.resolve_left ?_⟩⟩
  rw [h]
  exact nofun

end

/-- **What an operation keeps, and what it puts out.** -/
theorem apply_sound (w : World) (s : Presentation) (op : Operation) (h : s.publisher.Sound s.journal) :
    (s.apply w op).publisher.Sound (s.apply w op).journal ∧
      Grown s.publisher.settings (Ordered op s.publisher) s.journal (s.apply w op).journal := by
  cases op with
  | addTrack id kind =>
    obtain ⟨hsound, hgrown⟩ := Publisher.addTrack_sound (w := w) id kind h
    exact ⟨hsound, hgrown _⟩
  | removeTrack id =>
    obtain ⟨hsound, -, -, hgrown⟩ := Publisher.removeTrack_sound (w := w) id h
    exact ⟨hsound, hgrown.mono fun _ _ _ => ordered_of_noted rfl⟩
  | cycle frames =>
    obtain ⟨hsound, hgrown⟩ := Publisher.cycle_sound (w := w) frames h
    exact ⟨hsound, hgrown.mono fun _ _ _ => ordered_of_headed rfl⟩
  | setBitrate id kilobits =>
    obtain ⟨hsound, hgrown⟩ := Publisher.setBitrate_sound (w := w) id kilobits h
    exact ⟨hsound, hgrown _⟩
  | drainAudio =>
    obtain ⟨hsound, hgrown⟩ := Publisher.drainAudio_sound (w := w) h
    exact ⟨hsound, hgrown.mono fun _ _ _ => ordered_of_noted rfl⟩
  | configure folder baseName seconds =>
    obtain ⟨hsound, hgrown⟩ := Publisher.configure_sound (w := w) folder baseName seconds h
    exact ⟨hsound, hgrown _⟩
  | shutdown =>
    obtain ⟨hsound, hgrown⟩ := Publisher.shutdown_sound (w := w) h
    exact ⟨hsound, hgrown.mono fun _ _ _ => ordered_of_noted rfl⟩

theorem start_sound (settings : Settings) : (start settings).publisher.Sound (start settings).journal := by
  refine ⟨SortedMap.sorted_empty, fun id c hf => ?_⟩
  cases hf

theorem run_sound (w : World) (settings : Settings) (ops : List Operation) :
    ((start settings).run w ops).publisher.Sound ((start settings).run w ops).journal := by
  let inv : Presentation → Prop := fun s => s.publisher.Sound s.journal
  have step : ∀ s op, inv s → inv (s.apply w op) := fun s op h => (apply_sound w s op h).1
  exact run_invariant inv step ops (start settings) (start_sound settings)

/-- **Which segments are put out after their initialization segment.**  When an operation at the end of a run puts out a
segment of a track, the initialization segment of the track was written before in the lifetime of the track, unless the
operation closes tracks and the track was not described. -/
theorem header_written_iff (w : World) (settings : Settings) (ops : List Operation) (op : Operation) :
    let s := (start settings).run w ops
    ∃ new, (s.apply w op).journal = new ++ s.journal ∧
      ∀ later e earlier id kind, new = later ++ e :: earlier → e.PutsOut s.publisher.settings id kind →
        ∃ c, s.publisher.channels.find? id = some c ∧ c.kind = kind ∧
          (HeaderWritten s.publisher.settings id kind (earlier ++ s.journal) ↔
            op.tearsDown = false ∨ c.described = true) := by
  intro s
  obtain ⟨new, hnew, hall⟩ := (apply_sound w s op (run_sound w settings ops)).2.exists_new
  exact ⟨new, hnew, fun later e earlier id kind hn he => hall later e earlier hn id kind he⟩

def onePicture : Frame :=
  .video ⟨1000000000, 640, 480,
    [0, 0, 0, 1, 0x67, 66, 0, 1, 0, 0, 0, 1, 0x68, 206, 0, 0, 0, 1, 0x65, 0x88]⟩

/-- After one cycle with one picture the frame duration is not known; the track is not described and is removed. -/
theorem segment_without_header :
    let s := (start .default).run .obliging [.addTrack 1 .video, .cycle [(1, onePicture)]]
    ∃ later e earlier, (s.apply .obliging (.removeTrack 1)).journal = later ++ e :: earlier ++ s.journal ∧
      e.PutsOut s.publisher.settings 1 .video ∧
      ¬HeaderWritten s.publisher.settings 1 .video (earlier ++ s.journal) := by
  intro s
  have hsound : s.publisher.Sound s.journal := run_sound _ _ _
  have hstate : ∃ c, s.publisher.channels.find? 1 = some c ∧ c.isHolding = false ∧ c.finish.1 = true ∧
      c.described = false ∧ c.kind = .video := by
    have h : (s.publisher.channels.find? 1).any (fun c => !c.isHolding && c.finish.1 && !c.described &&
        decide (c.kind = .video)) = true := by decide +kernel
    obtain ⟨c, hc, h⟩ := (Option.any_eq_true _ _).1 h
    exact ⟨c, hc, by simpa [and_assoc] using h⟩
  clear_value s
  obtain ⟨c, hc, hh, hf, hd, hk⟩ := hstate
  obtain ⟨result, timestamp, duration, hj⟩ := Publisher.removeTrack_journal (w := .obliging) (j := s.journal) hc hh hf rfl
  refine ⟨[.manifest result, .announced (.removed c.adaptationSet (toString 1))], _,
    [.wrote (c.finish.2.segmentPath s.publisher.settings 1) c.finish.2.slot.data (.ok ())], hj, ?_, fun hw => ?_⟩
  · rw [show c.adaptationSet = Naming.adaptationSet .video from congrArg Naming.adaptationSet hk]
    exact .announced timestamp duration
  · have hw' : HeaderWritten s.publisher.settings 1 .video s.journal :=
      (headerWritten_cons (not_concerns_segment _ _ _ _ _ _ _)).1 hw
    rw [← hk, ← (hsound.tracks 1 c hc).header, hd] at hw'
    cases hw'

end Presentation
end Packager

import Packager.Proofs.FixedParts
import Packager.Proofs.LiveRun
import Packager.Proofs.VideoStart
/-!
# Proofs.Mirror — tracks, manifest and gate mirror each other

The representations that a live manifest lists are the tracks of the publisher, each with the bitrate and the time base of
its segmenter, and the gate knows the same video tracks.  Every operation changes all three together, so no announcement
meets a representation that the manifest does not list (`live_mirrors`).
-/
namespace Packager

/-! ## A manifest after an announcement -/

namespace Mpd

variable (m : Mpd) (set set' rep rep' : String)

theorem listing?_add (r : Representation) : (m.add r).listing? set rep =
    if r.adaptationSet = set ∧ r.id = rep then some ⟨r, []⟩ else m.listing? set rep := by
  unfold listing? add
  dsimp only
  rw [SortedMap.find?_insert]
  by_cases hs : r.adaptationSet = set
  · rw [if_pos hs, Option.bind_some, SortedMap.find?_insert, hs]
    by_cases hr : r.id = rep
    · simp [hr]
    · cases hl : m.sets.find? set <;> simp [hr, SortedMap.find?, SortedMap.empty]
  · simp [hs]

theorem listing?_remove : (m.remove set' rep').2.listing? set rep =
    if set' = set ∧ rep' = rep then none else m.listing? set rep := by
  unfold listing? remove
  cases hl : m.sets.find? set' with
  | none =>
    by_cases hs : set' = set
    · simp [← hs, hl]
    · simp [hs]
  | some listings =>
    dsimp only
    by_cases hs : set' = set
    · subst hs
      have herase : (if (listings.erase rep').isEmpty then m.sets.erase set' else
          m.sets.insert set' (listings.erase rep')).find? set' =
          if (listings.erase rep').isEmpty then none else some (listings.erase rep') := by
        split
        · rw [SortedMap.find?_erase, if_pos rfl]
        · rw [SortedMap.find?_insert, if_pos rfl]
      -- a set that is dropped held nothing else
      have hrest := listings.find?_erase rep' rep
      rw [herase, hl]
      split
      · rename_i he
        rw [SortedMap.find?_of_isEmpty he] at hrest
        by_cases hr : rep' = rep
        · simp [hr]
        · rw [if_neg hr] at hrest
          simp [hr, ← hrest]
      · rw [Option.bind_some, hrest]
        by_cases hr : rep' = rep <;> simp [hr]
    · have hother : (if (listings.erase rep').isEmpty then m.sets.erase set' else
          m.sets.insert set' (listings.erase rep')).find? set = m.sets.find? set := by
        split
        · rw [SortedMap.find?_erase, if_neg hs]
        · rw [SortedMap.find?_insert, if_neg hs]
      rw [hother]
      simp [hs]

theorem listing?_update (f : Listing → Listing) : (m.update set' rep' f).2.listing? set rep =
    if set' = set ∧ rep' = rep then (m.listing? set rep).map f else m.listing? set rep := by
  unfold listing? update
  dsimp only
  rw [SortedMap.find?_modify]
  by_cases hs : set' = set
  · cases hl : m.sets.find? set with
    | none => simp
    | some listings =>
      have hfound := listings.find?_modify rep' rep f
      by_cases hr : rep' = rep <;> simp_all
  · simp [hs]

/-- Bitrate and time base of a representation that is listed. -/
def rates? (m : Mpd) (set rep : String) : Option (Nat × Nat) :=
  (m.listing? set rep).map fun l => (l.representation.bitrate, l.representation.timeBase)

theorem rates?_add (r : Representation) : (m.add r).rates? set rep =
    if r.adaptationSet = set ∧ r.id = rep then some (r.bitrate, r.timeBase) else m.rates? set rep := by
  unfold rates?
  rw [listing?_add]
  split <;> rfl

theorem rates?_remove : (m.remove set' rep').2.rates? set rep =
    if set' = set ∧ rep' = rep then none else m.rates? set rep := by
  unfold rates?
  rw [listing?_remove]
  split <;> rfl

theorem rates?_setBitrate (bitrate : Nat) : (m.setBitrate set' rep' bitrate).2.rates? set rep =
    if set' = set ∧ rep' = rep then (m.rates? set rep).map fun r => (bitrate, r.2) else m.rates? set rep := by
  unfold rates? setBitrate
  rw [listing?_update]
  split
  · cases m.listing? set rep <;> rfl
  · rfl

/-- A change that leaves bitrate and time base alone. -/
theorem rates?_update {f : Listing → Listing}
    (hf : ∀ l, (f l).representation.bitrate = l.representation.bitrate ∧
      (f l).representation.timeBase = l.representation.timeBase) :
    (m.update set' rep' f).2.rates? set rep = m.rates? set rep := by
  unfold rates?
  rw [listing?_update]
  split
  · cases m.listing? set rep with
    | none => rfl
    | some l => simp [hf l]
  · rfl

end Mpd

/-- The representation that an announcement takes to be listed. -/
def Announcement.target? : Announcement → Option (String × String)
  | added _ | relocated _ _ => none
  | removed set rep | bitrate set rep _ | codec set rep _ | segment set rep _ _ => some (set, rep)

/-- Whether the representation that an announcement is about is listed. -/
def Mpd.Knows (m : Mpd) (news : Announcement) : Prop :=
  ∀ set rep, news.target? = some (set, rep) → (m.listing? set rep).isSome = true

theorem Mpd.knows_of_rates {m : Mpd} {news : Announcement} {set rep : String} (ht : news.target? = some (set, rep))
    (h : (m.rates? set rep).isSome = true) : m.Knows news := by
  intro set' rep' ht'
  cases ht.symm.trans ht'
  rwa [rates?, Option.isSome_map] at h

namespace Journal

/-- Whether every announcement was about a representation that was listed by then. -/
def Known (start : Mpd) (j : Journal) : Prop :=
  ∀ later news earlier, j = later ++ .announced news :: earlier → (manifest start earlier).Knows news

variable {start : Mpd} {settings : Settings} {id : TrackId} {kind : Kind} {j k l : Journal}

theorem known_nil : Known start [] := by
  intro later news earlier h
  cases later <;> cases h

theorem Known.aside {e : Effect} (h : Known start j) (he : ∀ news, e ≠ .announced news) : Known start (e :: j) := by
  intro later news earlier hj
  cases later with
  | nil => exact absurd (List.cons.inj hj).1 (he news)
  | cons x later => exact h later news earlier (List.cons.inj hj).2

theorem Known.announced {news : Announcement} (h : Known start j) (hn : (manifest start j).Knows news) :
    Known start (.announced news :: j) := by
  intro later news' earlier hj
  cases later with
  | nil =>
    obtain ⟨he, rfl⟩ := List.cons.inj hj
    cases he
    exact hn
  | cons x later => exact h later news' earlier (List.cons.inj hj).2

/-- What the journal gains without touching a bitrate or a time base: every announcement is about a listed
representation. -/
structure Reports (start : Mpd) (j k : Journal) : Prop where
  rates : ∀ set rep, (k.manifest start).rates? set rep = (j.manifest start).rates? set rep
  known : Known start j → Known start k

theorem Reports.refl (start : Mpd) (j : Journal) : Reports start j j := ⟨fun _ _ => rfl, fun h => h⟩

theorem Reports.trans (h : Reports start j k) (h' : Reports start k l) : Reports start j l :=
  ⟨fun set rep => (h'.rates set rep).trans (h.rates set rep), fun hj => h'.known (h.known hj)⟩

theorem reports_wrote (path : Path) (content : Bytes) (result : Except IoError Unit) :
    Reports start j (.wrote path content result :: j) := ⟨fun _ _ => rfl, fun h => h.aside nofun⟩

theorem reports_codec {set rep : String} (codec : String) (h : ((j.manifest start).rates? set rep).isSome = true) :
    Reports start j (.announced (.codec set rep codec) :: j) :=
  ⟨fun set' rep' => Mpd.rates?_update _ set' set rep' rep fun _ => ⟨rfl, rfl⟩,
    fun hk => hk.announced (Mpd.knows_of_rates rfl h)⟩

theorem reports_segment {set rep : String} (timestamp duration : Nat)
    (h : ((j.manifest start).rates? set rep).isSome = true) :
    Reports start j (.announced (.segment set rep timestamp duration) :: j) :=
  ⟨fun set' rep' => Mpd.rates?_update _ set' set rep' rep fun _ => ⟨rfl, rfl⟩,
    fun hk => hk.announced (Mpd.knows_of_rates rfl h)⟩

end Journal

section
variable {start : Mpd} {settings : Settings} {id : TrackId} {kind : Kind} {j k : Journal}

/-- Taking a frame of a track that is listed. -/
theorem Heads.reports (h : Heads settings id kind j k)
    (hl : ((j.manifest start).rates? (Naming.adaptationSet kind) (toString id)).isSome = true) :
    Journal.Reports start j k := by
  cases h with
  | nothing => exact .refl start j
  | failed content e => exact Journal.reports_wrote _ content (.error e)
  | made content codec => exact (Journal.reports_wrote _ content (.ok ())).trans (Journal.reports_codec codec hl)

/-- Publishing segments of a track that is listed. -/
theorem Emits.reports {paths : List Path} (h : Emits settings id kind j paths k)
    (hl : ((j.manifest start).rates? (Naming.adaptationSet kind) (toString id)).isSome = true) :
    Journal.Reports start j k := by
  induction h with
  | nothing => exact .refl start j
  | failed _ timestamp content e ih => exact ih.trans (Journal.reports_wrote _ content (.error e))
  | published _ timestamp duration f _ ih =>
    have hk := hl
    rw [← ih.rates] at hk
    exact (ih.trans (Journal.reports_wrote _ f.encode (.ok ()))).trans (Journal.reports_segment timestamp duration hk)

end

/-! ## The mirror -/

/-- What the manifest says of a track: its adaptation set, its bitrate and its time base. -/
def Channel.listing (c : Channel) : String × Nat × Nat :=
  (c.adaptationSet, c.segmenter.assembly.bitrate, c.segmenter.assembly.clock.timeBase)

theorem Channel.listing_of_keeps {c d : Channel} (h : c.segmenter.Keeps d.segmenter) : d.listing = c.listing :=
  Prod.ext (congrArg Naming.adaptationSet h.kind) (Prod.ext h.bitrate h.timeBase)

/-- Whether a publisher has the track of a representation, with its bitrate and time base. -/
def Publisher.Plays (p : Publisher) (set rep : String) (rates : Nat × Nat) : Prop :=
  ∃ id, (p.channels.find? id).map Channel.listing = some (set, rates) ∧ rep = toString id

namespace Presentation

/-- Whether the manifest lists exactly the tracks, and no announcement was about anything else. -/
structure Mirrored (start : Mpd) (s : Presentation) : Prop where
  rates : ∀ set rep r, (s.journal.manifest start).rates? set rep = some r ↔ s.publisher.Plays set rep r
  known : s.journal.Known start

variable {w : World} {m : Mpd} {s t : Presentation} {p q : Publisher} {j k : Journal} {id : TrackId} {c d : Channel}

theorem Mirrored.listed (h : Mirrored m ⟨p, j⟩) (hc : p.channels.find? id = some c) :
    ((j.manifest m).rates? c.adaptationSet (toString id)).isSome = true := by
  have hplays : p.Plays c.adaptationSet (toString id) c.listing.2 := ⟨id, by rw [hc]; rfl, rfl⟩
  have hr : (j.manifest m).rates? c.adaptationSet (toString id) = some c.listing.2 := (h.rates _ _ _).2 hplays
  rw [hr]
  rfl

/-- A change that the manifest says nothing of. -/
theorem Mirrored.unlisted (h : Mirrored m ⟨p, j⟩) (hj : Journal.Reports m j k)
    (hq : ∀ id, (q.channels.find? id).map Channel.listing = (p.channels.find? id).map Channel.listing) :
    Mirrored m ⟨q, k⟩ := by
  refine ⟨fun set rep r => ?_, hj.known h.known⟩
  rw [hj.rates]
  unfold Publisher.Plays
  simp only [hq]
  exact h.rates set rep r

theorem listing_setChannel (hc : p.channels.find? id = some c) (hd : d.listing = c.listing) (id' : TrackId) :
    ((p.setChannel id d).channels.find? id').map Channel.listing = (p.channels.find? id').map Channel.listing := by
  rw [p.find?_setChannel]
  by_cases he : id = id'
  · rw [if_pos he, ← he, hc]
    exact congrArg some hd
  · rw [if_neg he]

theorem plays_toString {set : String} {r : Nat × Nat} :
    p.Plays set (toString id) r ↔ (p.channels.find? id).map Channel.listing = some (set, r) := by
  constructor
  · rintro ⟨id', hf, he⟩
    rw [toString_inj he]
    exact hf
  · exact fun hf => ⟨id, hf, rfl⟩

/-- A change of one track says nothing of other representations. -/
theorem plays_other {set rep : String} {r : Nat × Nat} (hne : toString id ≠ rep)
    (hq : ∀ id', id ≠ id' → q.channels.find? id' = p.channels.find? id') : q.Plays set rep r ↔ p.Plays set rep r := by
  have hother : ∀ id', rep = toString id' → q.channels.find? id' = p.channels.find? id' := fun id' he =>
    hq id' fun heq => hne (heq ▸ he.symm)
  constructor
  · rintro ⟨id', hf, he⟩
    exact ⟨id', hother id' he ▸ hf, he⟩
  · rintro ⟨id', hf, he⟩
    exact ⟨id', (hother id' he).symm ▸ hf, he⟩

theorem Mirrored.added {rep : Representation} (h : Mirrored m ⟨p, j⟩) (hfree : p.channels.find? id = none)
    (hc : c.listing = (rep.adaptationSet, rep.bitrate, rep.timeBase)) (hid : rep.id = toString id)
    (hq : ∀ id', q.channels.find? id' = if id = id' then some c else p.channels.find? id') :
    Mirrored m ⟨q, .announced (.added rep) :: j⟩ := by
  refine ⟨fun set rep' r => ?_, h.known.announced nofun⟩
  show ((j.manifest m).add rep).rates? set rep' = some r ↔ _
  rw [Mpd.rates?_add, hid]
  by_cases hrep : toString id = rep'
  · subst hrep
    rw [plays_toString, hq, if_pos rfl, Option.map_some, hc]
    by_cases hset : rep.adaptationSet = set
    · simp [hset]
    · rw [if_neg fun he => hset he.1, h.rates set (toString id) r, plays_toString, hfree]
      simp [hset]
  · rw [if_neg fun he => hrep he.2, h.rates set rep' r]
    exact (plays_other hrep fun id' hne => (hq id').trans (if_neg hne)).symm

theorem Mirrored.rated (h : Mirrored m ⟨p, j⟩) (hc : p.channels.find? id = some c) (bitrate : Nat) :
    Mirrored m ⟨p.setChannel id { c with segmenter := c.segmenter.setBitrate bitrate },
      .announced (.bitrate c.adaptationSet (toString id) bitrate) :: j⟩ := by
  refine ⟨fun set rep r => ?_, h.known.announced (Mpd.knows_of_rates rfl (h.listed hc))⟩
  show ((j.manifest m).setBitrate c.adaptationSet (toString id) bitrate).2.rates? set rep = some r ↔ _
  have hq := fun id' => p.find?_setChannel id id' { c with segmenter := c.segmenter.setBitrate bitrate }
  have hlisting : Channel.listing { c with segmenter := c.segmenter.setBitrate bitrate } =
    (c.adaptationSet, bitrate, c.segmenter.assembly.clock.timeBase) := rfl
  rw [Mpd.rates?_setBitrate]
  by_cases hrep : toString id = rep
  · subst hrep
    rw [plays_toString, hq, if_pos rfl, Option.map_some, hlisting]
    by_cases hset : c.adaptationSet = set
    · have hbefore : (j.manifest m).rates? set (toString id) = some c.listing.2 :=
        (h.rates _ _ _).2 (plays_toString.2 (by rw [hc, ← hset]; rfl))
      rw [if_pos ⟨hset, rfl⟩, hbefore]
      simp [hset, Channel.listing]
    · rw [if_neg fun he => hset he.1, h.rates set (toString id) r, plays_toString, hc]
      simp [hset, Channel.listing]
  · rw [if_neg fun he => hrep he.2, h.rates set rep r]
    exact (plays_other hrep fun id' hne => (hq id').trans (if_neg hne)).symm

theorem Mirrored.removed (h : Mirrored m ⟨p, j⟩) (hj : Journal.Reports m j k) (hc : p.channels.find? id = some c)
    (hq : ∀ id', q.channels.find? id' = if id = id' then none else p.channels.find? id') :
    Mirrored m ⟨q, .announced (.removed c.adaptationSet (toString id)) :: k⟩ := by
  have hlisted := h.listed hc
  rw [← hj.rates] at hlisted
  refine ⟨fun set rep r => ?_, (hj.known h.known).announced (Mpd.knows_of_rates rfl hlisted)⟩
  show ((k.manifest m).remove c.adaptationSet (toString id)).2.rates? set rep = some r ↔ _
  rw [Mpd.rates?_remove, hj.rates]
  by_cases hrep : toString id = rep
  · subst hrep
    rw [plays_toString, hq, if_pos rfl]
    by_cases hset : c.adaptationSet = set
    · simp [hset]
    · rw [if_neg fun he => hset he.1, h.rates set (toString id) r, plays_toString, hc]
      simp [hset, Channel.listing]
  · rw [if_neg fun he => hrep he.2, h.rates set rep r]
    exact (plays_other hrep fun id' hne => (hq id').trans (if_neg hne)).symm

theorem Move.mirrored (h : Move w s t) (hs : s.Sane) (hm : Mirrored m s) : Mirrored m t := by
  cases h with
  | manifest p j result => exact hm.unlisted ⟨fun _ _ => rfl, fun h => h.aside nofun⟩ fun _ => rfl
  | @added p id hfree j kind c hc =>
    refine hm.added hfree ?_ rfl (p.find?_setChannel id · c)
    rcases hc with rfl | ⟨origin, rfl⟩
    · cases kind <;> rfl
    · have hk := (Channel.start p.settings id kind).segmenter.keeps_setOrigin origin
      refine (Channel.listing_of_keeps hk).trans ?_
      cases kind <;> rfl
  | @counted p hnone j origin =>
    refine hm.unlisted (.refl m j) fun id => ?_
    rw [SortedMap.find?_mapValues, Option.map_map]
    exact congrArg (Option.map · _) (funext fun c => Channel.listing_of_keeps (c.segmenter.keeps_setOrigin origin))
  | @fed p id c hc j frame =>
    have hk := c.keeps_feed w p.settings id frame j
    exact hm.unlisted ((Channel.feed_heads w p.settings id c frame j).2.2.reports (hm.listed hc))
      (listing_setChannel hc (Channel.listing_of_keeps hk))
  | held => exact hm.unlisted (.refl m _) fun _ => rfl
  | @discarded p id c window hc hh hw hv j => exact hm.unlisted (.refl m j) (listing_setChannel hc rfl)
  | @released p id c window hc hh hw hv j =>
    obtain ⟨f, hf⟩ := hs.sealed id c hc (by simpa [Channel.isHolding] using hh)
    obtain ⟨hfreed, hout⟩ := Channel.publish_emits w p.settings id hf j
    have hreports : Journal.Reports m j (c.publish w.outlet p.settings id j).2 := by
      rcases hout with ⟨e, -, hemits, -⟩ | ⟨-, hemits, -⟩ <;> exact hemits.reports (hm.listed hc)
    rw [hfreed]
    exact hm.unlisted hreports (listing_setChannel hc rfl)
  | forced p j => exact hm.unlisted (.refl m j) fun _ => rfl
  | @drained p id c hc hk j =>
    obtain ⟨-, -, paths, -, hemits⟩ := Channel.drain_emits w p.settings id (hs.sealed id c hc) j
    exact hm.unlisted (hemits.reports (hm.listed hc))
      (listing_setChannel hc (Channel.listing_of_keeps (c.keeps_drain w p.settings id j)))
  | @rated p id c hc j bitrate => exact hm.rated hc bitrate
  | @removed p id c hc j =>
    obtain ⟨-, -, paths, -, hemits⟩ := Channel.drain_emits w p.settings id (hs.sealed id c hc) j
    exact hm.removed (hemits.reports (hm.listed hc)) hc (p.channels.find?_erase id)

theorem Relocated.mirrored (h : Relocated s t) (hm : Mirrored m s) : Mirrored m t := by
  cases h with
  | refused => exact hm
  | failed folder e => exact hm.unlisted ⟨fun _ _ => rfl, fun h => h.aside nofun⟩ fun _ => rfl
  | done folder baseName seconds hnone =>
    refine hm.unlisted ⟨fun _ _ => rfl, fun h => .announced (h.aside nofun) nofun⟩ fun _ => rfl

theorem start_mirrored (settings : Settings) {m : Mpd} (hm : m.sets = .empty) : Mirrored m (start settings) := by
  refine ⟨fun set rep r => ?_, Journal.known_nil⟩
  have hnone : m.listing? set rep = none := by
    unfold Mpd.listing?
    rw [hm]
    rfl
  refine iff_of_false ?_ ?_
  · show ¬m.rates? set rep = some r
    unfold Mpd.rates?
    rw [hnone]
    exact nofun
  · rintro ⟨id, hf, -⟩
    cases hf

/-- **Tracks, manifest and gate after every live run.**  The manifest lists exactly the tracks, each with the bitrate and
the time base of its segmenter; the gate knows exactly the video tracks, and those that started are among them.  The
manifest is what was announced, and nothing was announced of a representation that was not listed by then. -/
theorem live_mirrors {σ : Type} (disk : Disk (StateM σ)) (clock : StateM σ Instant) (settings : Settings) (now : Instant)
    (ops : List Operation) (s : σ) :
    let empty := Mpd.start settings now
    let live := (start settings).publisher.runLive disk clock ops empty s
    let p := live.1.1
    let m := live.1.2
    let calls := ((start settings).run (.behind disk clock (empty, s)) ops).journal
    (∀ set rep, (∃ l, m.listing? set rep = some l) ↔
      ∃ id c, p.channels.find? id = some c ∧ set = c.adaptationSet ∧ rep = toString id) ∧
    (∀ id c l, p.channels.find? id = some c → m.listing? c.adaptationSet (toString id) = some l →
      l.representation.bitrate = c.segmenter.assembly.bitrate ∧
      l.representation.timeBase = c.segmenter.assembly.clock.timeBase) ∧
    (∀ id, id ∈ p.gate.video ↔ ∃ c, p.channels.find? id = some c ∧ c.kind = .video) ∧
    (∀ id ∈ p.gate.started, id ∈ p.gate.video) ∧
    m = calls.manifest empty ∧
    ∀ later news earlier, calls = later ++ .announced news :: earlier →
      (Journal.manifest empty earlier).Knows news := by
  intro empty live p m calls
  obtain ⟨hp, hmanifest⟩ := Publisher.live_run disk clock settings ops empty s
  have hp : p = ((start settings).run (.behind disk clock (empty, s)) ops).publisher := hp
  have hmanifest : m = calls.manifest empty := hmanifest
  have hwatched := run_watched (.behind disk clock (empty, s)) settings ops
  have hvideo : ∀ id, id ∈ p.gate.video ↔ ∃ c, p.channels.find? id = some c ∧ c.kind = .video := by
    rw [hp]
    exact hwatched.video
  have hstarted : ∀ id ∈ p.gate.started, ∃ c, p.channels.find? id = some c ∧ c.kind = .video := by
    rw [hp]
    exact hwatched.present
  have hmirrored : Mirrored empty ((start settings).run (.behind disk clock (empty, s)) ops) :=
    (run_kept (fun _ _ hm hsane h => hm.mirrored hsane h) (fun _ _ hr h => hr.mirrored h)
      (start_mirrored settings rfl) ops).2
  have hrates : ∀ set rep r, m.rates? set rep = some r ↔ p.Plays set rep r := by
    rw [hp, hmanifest]
    exact hmirrored.rates
  refine ⟨fun set rep => ?_, fun id c l hc hl => ?_, hvideo, fun id hs => (hvideo id).2 (hstarted id hs), hmanifest,
    hmirrored.known⟩
  · constructor
    · rintro ⟨l, hl⟩
      obtain ⟨id, hf, hrep⟩ := (hrates set rep _).1 (by rw [Mpd.rates?, hl]; rfl)
      obtain ⟨c, hc, hlisting⟩ := Option.map_eq_some_iff.1 hf
      exact ⟨id, c, hc, (congrArg Prod.fst hlisting).symm, hrep⟩
    · rintro ⟨id, c, hc, rfl, rfl⟩
      have hr := (hrates c.adaptationSet (toString id) c.listing.2).2 (plays_toString.2 (by rw [hc]; rfl))
      obtain ⟨l, hl, -⟩ := Option.map_eq_some_iff.1 hr
      exact ⟨l, hl⟩
  · have hr := (hrates c.adaptationSet (toString id) c.listing.2).2 (plays_toString.2 (by rw [hc]; rfl))
    rw [Mpd.rates?, hl] at hr
    exact Prod.mk.inj (Option.some.inj hr)

end Presentation
end Packager

import Packager.Proofs.Mirror
/-!
# Proofs.Coherence — settings, segmenters and manifest agree

The settings of a publisher are copied: into the segmenter of every new track, into its representation and into the
manifest.  They change only while there are no tracks, and the manifest is told, so every copy is one of the settings as
they are (`Coherent`); and they stay such that a publisher could start with them.  This holds of every live publisher
after any requests, control events among them, carried out or refused (`live_coherent`).  Only the segment length is not
copied but multiplied by the time base, and no check bounds it: past 64 bits the product wraps around
(`target_wraps`).
-/
namespace Packager

/-! ## Requests -/

/-- The operation that a control event asks for. -/
def ControlEvent.operation : ControlEvent → Operation
  | configure folder baseName seconds => .configure folder baseName seconds
  | addSegmenter id kind => .addTrack id kind
  | removeSegmenter id => .removeTrack id
  | setBitrate id kilobits => .setBitrate id kilobits

/-- What a publisher is asked for: an operation, or whatever came as a control event. -/
inductive Request where
  | operation (op : Operation)
  | event (data : Data)

namespace Request

/-- The operation that a request comes to, if it can be read. -/
def operation? : Request → Option Operation
  | operation op => some op
  | event data => (ControlEvent.parse data).toOption.map ControlEvent.operation

variable {m : Type → Type} [Monad m]

def run (outlet : Outlet m) (p : Publisher) : Request → m Publisher
  | operation op => op.run outlet p
  | event data => Prod.snd <$> p.handle outlet data

/-- **A request is an operation, or nothing.** -/
theorem run_eq [LawfulMonad m] (outlet : Outlet m) (p : Publisher) (request : Request) :
    request.run outlet p = match request.operation? with
      | some op => op.run outlet p
      | none => pure p := by
  cases request with
  | operation op => rfl
  | event data =>
    have hop : operation? (event data) = (ControlEvent.parse data).toOption.map ControlEvent.operation := rfl
    rw [hop]
    show Prod.snd <$> p.handle outlet data = _
    unfold Publisher.handle
    cases ControlEvent.parse data with
    | error failure =>
      show Prod.snd <$> (pure (controlReply (.error failure), p) : m (Data × Publisher)) = pure p
      exact map_pure _ _
    | ok event =>
      show Prod.snd <$> (p.apply outlet event >>= fun out => pure (controlReply out.1, out.2)) = _
      have hsnd : Prod.snd <$> (p.apply outlet event >>= fun out => pure (controlReply out.1, out.2)) =
          Prod.snd <$> p.apply outlet event := by
        simp only [map_eq_pure_bind, bind_assoc, pure_bind]
      refine hsnd.trans ?_
      cases event <;> rfl

end Request

namespace Publisher

variable {σ : Type} (disk : Disk (StateM σ)) (clock : StateM σ Instant)

/-- A live publisher takes requests. -/
def serveLive (requests : List Request) (p : Publisher) : StateT Mpd (StateM σ) Publisher :=
  requests.foldlM (fun p request => request.run (.live disk clock) p) p

theorem serveLive_eq : ∀ (requests : List Request) (p : Publisher),
    p.serveLive disk clock requests = p.runLive disk clock (requests.filterMap Request.operation?)
  | [], _ => rfl
  | request :: requests, p => by
    have ih := serveLive_eq requests
    unfold serveLive runLive at ih ⊢
    rw [List.foldlM_cons, request.run_eq]
    cases hop : request.operation? with
    | none =>
      rw [List.filterMap_cons_none hop, ← ih]
      exact pure_bind _ _
    | some op =>
      rw [List.filterMap_cons_some hop, List.foldlM_cons]
      exact congrArg _ (funext ih)

end Publisher

/-! ## The manifest -/

/-- Whether the templates of a representation are made with a base name. -/
def Representation.NamedAfter (r : Representation) (baseName : String) : Prop :=
  r.segmentTemplate = Naming.segmentTemplate baseName (Naming.fileExtension r.kind) ∧
  r.headerTemplate = Naming.headerTemplate baseName (Naming.fileExtension r.kind)

namespace Mpd

/-- Whether the templates of all that is listed are made with a base name. -/
def NamedAfter (m : Mpd) (baseName : String) : Prop :=
  ∀ set rep l, m.listing? set rep = some l → l.representation.NamedAfter baseName

variable {m : Mpd} {baseName : String}

theorem NamedAfter.add (h : m.NamedAfter baseName) {r : Representation} (hr : r.NamedAfter baseName) :
    (m.add r).NamedAfter baseName := by
  intro set rep l hl
  rw [listing?_add] at hl
  split at hl
  · cases hl
    exact hr
  · exact h set rep l hl

theorem NamedAfter.remove (h : m.NamedAfter baseName) (set rep : String) : (m.remove set rep).2.NamedAfter baseName := by
  intro set' rep' l hl
  rw [listing?_remove] at hl
  split at hl
  · cases hl
  · exact h set' rep' l hl

theorem NamedAfter.update (h : m.NamedAfter baseName) (set rep : String) {f : Listing → Listing}
    (hf : ∀ l, l.representation.NamedAfter baseName → (f l).representation.NamedAfter baseName) :
    (m.update set rep f).2.NamedAfter baseName := by
  intro set' rep' l hl
  rw [listing?_update] at hl
  split at hl
  · obtain ⟨before, hbefore, rfl⟩ := Option.map_eq_some_iff.1 hl
    exact hf before (h set' rep' before hbefore)
  · exact h set' rep' l hl

end Mpd

/-- Whether an announcement keeps to a base name and moves nothing. -/
def Announcement.KeepsTo (baseName : String) : Announcement → Prop
  | added rep => rep.NamedAfter baseName
  | relocated _ _ => False
  | _ => True

namespace Journal

/-- What the journal gains without moving the manifest or listing anything under another base name. -/
structure Stays (start : Mpd) (baseName : String) (j k : Journal) : Prop where
  path : (k.manifest start).path = (j.manifest start).path
  seconds : (k.manifest start).seconds = (j.manifest start).seconds
  named : (j.manifest start).NamedAfter baseName → (k.manifest start).NamedAfter baseName

variable {start : Mpd} {baseName : String} {j k l : Journal}

theorem Stays.refl : Stays start baseName j j := ⟨rfl, rfl, fun h => h⟩

theorem Stays.trans (h : Stays start baseName j k) (h' : Stays start baseName k l) : Stays start baseName j l :=
  ⟨h'.path.trans h.path, h'.seconds.trans h.seconds, fun hj => h'.named (h.named hj)⟩

theorem Stays.announced (h : Stays start baseName j k) {news : Announcement} (hn : news.KeepsTo baseName) :
    Stays start baseName j (.announced news :: k) := by
  have hremove : ∀ (m : Mpd) (set rep : String), (m.remove set rep).2.path = m.path ∧
      (m.remove set rep).2.seconds = m.seconds := by
    intro m set rep
    unfold Mpd.remove
    split <;> exact ⟨rfl, rfl⟩
  refine h.trans ?_
  cases news with
  | added rep => exact ⟨rfl, rfl, fun hj => hj.add hn⟩
  | removed set rep =>
    obtain ⟨hpath, hseconds⟩ := hremove (k.manifest start) set rep
    exact ⟨hpath, hseconds, fun hj => hj.remove set rep⟩
  | bitrate set rep bitrate => exact ⟨rfl, rfl, fun hj => hj.update set rep fun _ hl => hl⟩
  | codec set rep codec => exact ⟨rfl, rfl, fun hj => hj.update set rep fun _ hl => hl⟩
  | segment set rep timestamp duration => exact ⟨rfl, rfl, fun hj => hj.update set rep fun _ hl => hl⟩
  | relocated path seconds => cases hn

theorem Stays.wrote (h : Stays start baseName j k) (path : Path) (content : Bytes) (result : Except IoError Unit) :
    Stays start baseName j (.wrote path content result :: k) := ⟨h.path, h.seconds, h.named⟩

end Journal

section
variable {start : Mpd} {baseName : String} {settings : Settings} {id : TrackId} {kind : Kind} {j k : Journal}

theorem Heads.stays (h : Heads settings id kind j k) : Journal.Stays start baseName j k := by
  cases h with
  | nothing => exact .refl
  | failed content e => exact Journal.Stays.refl.wrote _ content (.error e)
  | made content codec => exact (Journal.Stays.refl.wrote _ content (.ok ())).announced trivial

theorem Emits.stays {paths : List Path} (h : Emits settings id kind j paths k) : Journal.Stays start baseName j k := by
  induction h with
  | nothing => exact .refl
  | failed _ timestamp content e ih => exact ih.wrote _ content (.error e)
  | published _ timestamp duration f _ ih => exact (ih.wrote _ f.encode (.ok ())).announced trivial

end

theorem Publisher.representation_named (settings : Settings) (id : TrackId) (kind : Kind) :
    (representation settings id kind).NamedAfter settings.baseName := ⟨rfl, rfl⟩

/-! ## The settings and their copies -/

namespace Settings

/-- Settings that are accepted, part by part. -/
theorem check_eq_ok (s : Settings) : s.check = .ok () ↔ checkBaseName s.baseName = .ok () ∧ 0 < s.segment.seconds ∧
    (0 < s.segment.videoTimeBase ∧ 0 < s.segment.audioTimeBase) ∧ 0 < s.segment.maxBytes := by
  unfold check
  cases checkBaseName s.baseName with
  | error fault => exact iff_of_false nofun nofun
  | ok =>
    simp only [bind, Except.bind, throw, throwThe, MonadExceptOf.throw]
    split
    · exact iff_of_false nofun fun h => by omega
    · split
      · exact iff_of_false nofun fun h => by omega
      · split
        · exact iff_of_false nofun fun h => by omega
        · exact iff_of_true rfl ⟨trivial, by omega, by omega, by omega⟩

end Settings

/-- Whether a segmenter has the time base of the settings for its kind, and their segment length in ticks of it, as far
as that fits a 64-bit number. -/
def Settings.Plans (settings : Settings) (g : Segmenter) : Prop :=
  g.assembly.clock.timeBase = settings.timeBase g.kind ∧
    g.assembly.target = settings.segment.seconds * settings.timeBase g.kind % UInt64.size

namespace Settings.Plans

variable {settings : Settings} {g g' : Segmenter}

theorem keeps (h : settings.Plans g) (hk : g.Keeps g') : settings.Plans g' := by
  unfold Settings.Plans
  rw [hk.timeBase, hk.target, hk.kind]
  exact h

theorem start (settings : Settings) (id : TrackId) (kind : Kind) :
    settings.Plans (.start kind (settings.plan id kind)) := by
  cases kind <;> exact ⟨rfl, rfl⟩

end Settings.Plans

namespace Presentation

/-- Whether settings and copies agree. -/
structure Coherent (start : Mpd) (s : Presentation) : Prop where
  check : s.publisher.settings.check = .ok ()
  path : (s.journal.manifest start).path = s.publisher.settings.manifestPath
  seconds : (s.journal.manifest start).seconds = s.publisher.settings.segment.seconds
  plans : ∀ id c, s.publisher.channels.find? id = some c → s.publisher.settings.Plans c.segmenter
  named : (s.journal.manifest start).NamedAfter s.publisher.settings.baseName

variable {w : World} {m : Mpd} {s t : Presentation}

/-- **A move neither moves the manifest nor lists anything under another base name.** -/
theorem Move.stays (h : Move w s t) (hs : s.Sane) :
    Journal.Stays m s.publisher.settings.baseName s.journal t.journal := by
  cases h with
  | manifest => exact ⟨rfl, rfl, fun h => h⟩
  | @added p id hfree j kind c hc =>
    exact Journal.Stays.refl.announced (Publisher.representation_named p.settings id kind)
  | counted => exact .refl
  | @fed p id c hc j frame => exact (Channel.feed_heads w p.settings id c frame j).2.2.stays
  | held => exact .refl
  | discarded => exact .refl
  | @released p id c window hc hh hw hv j =>
    obtain ⟨f, hf⟩ := hs.sealed id c hc (by simpa [Channel.isHolding] using hh)
    obtain ⟨-, ⟨e, -, hemits, -⟩ | ⟨-, hemits, -⟩⟩ := Channel.publish_emits w p.settings id hf j
    · exact hemits.stays
    · exact hemits.stays
  | forced => exact .refl
  | @drained p id c hc hk j =>
    obtain ⟨-, -, paths, -, hemits⟩ := Channel.drain_emits w p.settings id (hs.sealed id c hc) j
    exact hemits.stays
  | rated => exact Journal.Stays.refl.announced trivial
  | @removed p id c hc j =>
    obtain ⟨-, -, paths, -, hemits⟩ := Channel.drain_emits w p.settings id (hs.sealed id c hc) j
    exact hemits.stays.announced trivial

theorem Move.coherent (h : Move w s t) (hs : s.Sane) (hc : Coherent m s) : Coherent m t := by
  have hstays : Journal.Stays m s.publisher.settings.baseName s.journal t.journal := h.stays hs
  have hsettings := h.settings
  refine ⟨hsettings ▸ hc.check, ?_, ?_, fun id d hd => ?_, ?_⟩
  · rw [hsettings, hstays.path, hc.path]
  · rw [hsettings, hstays.seconds, hc.seconds]
  · rw [hsettings]
    rcases h.channel_inherited Segmenter.keeps_inherited hd with ⟨c, hf, hk⟩ | ⟨c, bitrate, hf, he⟩ | ⟨kind, hk⟩
    · exact (hc.plans id c hf).keeps hk
    · rw [he]
      exact hc.plans id c hf
    · exact (Settings.Plans.start s.publisher.settings id kind).keeps hk
  · rw [hsettings]
    exact hstays.named hc.named

/-- Without tracks nothing is listed, so a new base name leaves nothing behind. -/
theorem Mirrored.named_of_empty (h : Mirrored m s) (hnone : ∀ id, s.publisher.channels.find? id = none)
    (baseName : String) : (s.journal.manifest m).NamedAfter baseName := by
  intro set rep l hl
  obtain ⟨id, hf, -⟩ := (h.rates set rep _).1 (by rw [Mpd.rates?, hl]; rfl)
  rw [hnone id] at hf
  cases hf

theorem Relocated.coherent (h : Relocated s t) (hm : Mirrored m s) (hc : Coherent m s) : Coherent m t := by
  cases h with
  | refused => exact hc
  | failed folder e => exact ⟨hc.check, hc.path, hc.seconds, hc.plans, hc.named⟩
  | done folder baseName seconds hnone hname hseconds =>
    obtain ⟨-, -, hrest⟩ := (Settings.check_eq_ok _).1 hc.check
    refine ⟨(Settings.check_eq_ok _).2 ⟨hname, hseconds, hrest⟩, rfl, rfl, fun id c hf => ?_, ?_⟩
    · cases hf.symm.trans (hnone id)
    · exact hm.named_of_empty hnone baseName

theorem start_coherent {settings : Settings} (h : settings.check = .ok ()) (now : Instant) :
    Coherent (.start settings now) (start settings) := by
  refine ⟨h, rfl, rfl, fun id c hf => ?_, fun set rep l hl => ?_⟩
  · cases hf
  · cases hl

/-- **Settings and copies agree in every live publisher.**  Whatever a publisher that was created with its manifest is
asked for, by operations or by control events, and whatever the disk answers: its settings pass the check; the manifest
lies where they say and has their segment length; every segmenter has their time base for its kind; and the templates of
every representation are made with their base name.  A segmenter cuts at their segment length in ticks, reduced to 64
bits: that is the whole length exactly when it fits. -/
theorem live_coherent {σ : Type} (disk : Disk (StateM σ)) (clock : StateM σ Instant) {settings : Settings}
    {p₀ : Publisher} {m₀ : Mpd} {s t : σ} (h : Publisher.createLive disk clock settings s = (.ok (p₀, m₀), t))
    (requests : List Request) :
    let live := p₀.serveLive disk clock requests m₀ t
    let p := live.1.1
    let m := live.1.2
    p.settings.check = .ok () ∧
    m.path = p.settings.manifestPath ∧ m.seconds = p.settings.segment.seconds ∧
    (∀ id c, p.channels.find? id = some c →
      c.segmenter.assembly.clock.timeBase = p.settings.timeBase c.kind ∧
      c.segmenter.assembly.target = p.settings.segment.seconds * p.settings.timeBase c.kind % UInt64.size ∧
      (c.segmenter.assembly.target = p.settings.segment.seconds * p.settings.timeBase c.kind ↔
        (p.settings.plan id c.kind).Fits)) ∧
    ∀ set rep l, m.listing? set rep = some l →
      l.representation.segmentTemplate =
        Naming.segmentTemplate p.settings.baseName (Naming.fileExtension l.representation.kind) ∧
      l.representation.headerTemplate =
        Naming.headerTemplate p.settings.baseName (Naming.fileExtension l.representation.kind) := by
  intro live p m
  obtain ⟨hcheck, rfl, rfl⟩ := Publisher.createLive_ok disk clock h
  -- the requests are operations, and the live run is one in the world behind it
  let ops := requests.filterMap Request.operation?
  let empty := Mpd.start settings (clock s).1
  let world := World.behind disk clock (empty, t)
  let last := (start settings).run world ops
  have hlive : live = (start settings).publisher.runLive disk clock ops empty t :=
    congrFun (congrFun (Publisher.serveLive_eq disk clock requests _) empty) t
  obtain ⟨hp, hm⟩ := Publisher.live_run disk clock settings ops empty t
  rw [← hlive] at hp hm
  have hp : p = last.publisher := hp
  have hm : m = last.journal.manifest empty := hm
  -- a change of the base name needs to know that nothing is listed, which the mirror says
  let inv : Presentation → Prop := fun s => Mirrored empty s ∧ Coherent empty s
  have hkept : last.Sane ∧ inv last :=
    run_kept (fun _ _ hmove hs hi => ⟨hmove.mirrored hs hi.1, hmove.coherent hs hi.2⟩)
      (fun _ _ hr hi => ⟨hr.mirrored hi.1, hr.coherent hi.1 hi.2⟩)
      ⟨start_mirrored settings rfl, start_coherent hcheck (clock s).1⟩ ops
  obtain ⟨-, -, hcoherent⟩ := hkept
  rw [hp, hm]
  refine ⟨hcoherent.check, hcoherent.path, hcoherent.seconds, fun id c hc => ?_, hcoherent.named⟩
  obtain ⟨hbase, htarget⟩ := hcoherent.plans id c hc
  refine ⟨hbase, htarget, ?_⟩
  rw [htarget]
  exact Nat.mod_eq_iff_lt (by decide)

/-- A change of the output is refused while there is a track; after one without tracks, the next segmenter and the
manifest take the new length. -/
theorem live_coherent_renamed :
    let disk := World.obliging.outlet.disk
    let clock : StateM Journal Instant := pure default
    let p₀ := (start .default).publisher
    let rename : Data := .list [.text "configure", .text "live", .text "talk", .int 6]
    let requests : List Request := [.operation (.addTrack 1 .video), .event rename, .operation (.removeTrack 1),
      .event rename, .event (.list [.text "addSegmenter", .int 2, .text "audio"])]
    let created : Journal := [.folder ⟨"dash"⟩ (.ok ())]
    let live := p₀.serveLive disk clock requests (.start .default default) created
    Publisher.createLive disk clock .default [] = (.ok (p₀, .start .default default), created) ∧
    live.1.1.settings.baseName = "talk" ∧ live.1.1.settings.segment.seconds = 6 ∧ live.1.2.seconds = 6 ∧
    live.1.2.path = live.1.1.settings.manifestPath ∧
    ∃ c, live.1.1.channels.find? 2 = some c ∧ (live.1.1.settings.plan 2 c.kind).Fits ∧
      c.segmenter.assembly.target = 6 * 12800 := by
  intro disk clock p₀ rename requests created live
  have hcreated : Publisher.createLive disk clock .default [] = (.ok (p₀, .start .default default), created) := rfl
  obtain ⟨-, hpath, hseconds, hplans, -⟩ := live_coherent disk clock hcreated requests
  have hpath : live.1.2.path = live.1.1.settings.manifestPath := hpath
  have hseconds : live.1.2.seconds = live.1.1.settings.segment.seconds := hseconds
  have hsix : live.1.1.settings.segment.seconds = 6 := by decide +kernel
  have hbase : live.1.1.settings.segment.audioTimeBase = 12800 := by decide +kernel
  have hkind : (live.1.1.channels.find? 2).map Channel.kind = some .audio := by decide +kernel
  obtain ⟨c, hc, hkind⟩ := Option.map_eq_some_iff.1 hkind
  have hticks : live.1.1.settings.segment.seconds * live.1.1.settings.timeBase c.kind = 6 * 12800 := by
    rw [hkind, hsix]
    exact congrArg (6 * ·) hbase
  have hfits : (live.1.1.settings.plan 2 c.kind).Fits := by
    show live.1.1.settings.segment.seconds * live.1.1.settings.timeBase c.kind < UInt64.size
    rw [hticks]
    decide
  obtain ⟨-, -, hwhole⟩ := hplans 2 c hc
  exact ⟨hcreated, by decide +kernel, hsix, hseconds.trans hsix, hpath, c, hc, hfits, (hwhole.2 hfits).trans hticks⟩

/-- **A segment length can wrap around.**  A control event asks for segments of 2^60 seconds, which is carried out, as is
the next, which adds a segmenter: of the length in ticks, 12800 * 2^60, nothing is left. -/
theorem target_wraps :
    let disk := World.obliging.outlet.disk
    let clock : StateM Journal Instant := pure default
    let p₀ := (start .default).publisher
    let lengthen : Data := .list [.text "configure", .text "live", .text "talk", .int 1152921504606846976]
    let requests : List Request := [.event lengthen, .event (.list [.text "addSegmenter", .int 1, .text "audio"])]
    let created : Journal := [.folder ⟨"dash"⟩ (.ok ())]
    let live := p₀.serveLive disk clock requests (.start .default default) created
    Publisher.createLive disk clock .default [] = (.ok (p₀, .start .default default), created) ∧
    ∃ c, live.1.1.channels.find? 1 = some c ∧ c.segmenter.assembly.target = 0 ∧
      live.1.1.settings.segment.seconds * live.1.1.settings.timeBase c.kind = 1152921504606846976 * 12800 ∧
      c.segmenter.assembly.target ≠ live.1.1.settings.segment.seconds * live.1.1.settings.timeBase c.kind := by
  intro disk clock p₀ lengthen requests created live
  have htarget : (live.1.1.channels.find? 1).map (·.segmenter.assembly.target) = some 0 := by decide +kernel
  have hkind : (live.1.1.channels.find? 1).map Channel.kind = some .audio := by decide +kernel
  have hticks : live.1.1.settings.segment.seconds * live.1.1.settings.timeBase .audio = 1152921504606846976 * 12800 := by
    decide +kernel
  obtain ⟨c, hc, htarget⟩ := Option.map_eq_some_iff.1 htarget
  have hkind : c.kind = .audio := by
    rw [hc] at hkind
    exact Option.some.inj hkind
  refine ⟨rfl, c, hc, htarget, ?_⟩
  rw [htarget, hkind, hticks]
  exact ⟨rfl, by decide⟩

end Presentation
end Packager

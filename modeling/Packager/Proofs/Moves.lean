import Mathlib.Logic.Relation
import Packager.Proofs.Emission
import Packager.Proofs.HeaderFirst
/-!
# Proofs.Moves — the operations of a publisher as sequences of moves

A move does one thing to one track, or to the gate, the origin or the manifest alone (`Move`).  Every operation but a
change of the output is a sequence of moves (`apply_moves`), so what every move and every change of the output keeps holds
after every run (`run_kept`).
-/
namespace Packager

namespace Publisher

variable {p : Publisher} {id id' : TrackId} {c d : Channel}

theorem find?_setChannel (p : Publisher) (id id' : TrackId) (d : Channel) :
    (p.setChannel id d).channels.find? id' = if id = id' then some d else p.channels.find? id' :=
  SortedMap.find?_insert p.channels id id' d

/-- A channel that is found after one was set is that one, or one of another track that was there. -/
theorem find?_setChannel_cases (h : (p.setChannel id d).channels.find? id' = some c) :
    (id = id' ∧ d = c) ∨ (id ≠ id' ∧ p.channels.find? id' = some c) := by
  rw [find?_setChannel] at h
  by_cases he : id = id'
  · rw [if_pos he] at h
    exact .inl ⟨he, Option.some.inj h⟩
  · rw [if_neg he] at h
    exact .inr ⟨he, h⟩

theorem find?_erase_cases (h : (p.channels.erase id).find? id' = some c) :
    id ≠ id' ∧ p.channels.find? id' = some c := by
  rw [SortedMap.find?_erase] at h
  by_cases he : id = id'
  · rw [if_pos he] at h
    cases h
  · rw [if_neg he] at h
    exact ⟨he, h⟩

/-- Whether every slot is empty or holds a media segment. -/
def Sealed (p : Publisher) : Prop := ∀ id c, p.channels.find? id = some c → c.slot.Sealed

theorem Sealed.setChannel (h : p.Sealed) (hd : d.slot.Sealed) : (p.setChannel id d).Sealed := by
  intro id' c hf
  obtain ⟨-, rfl⟩ | ⟨-, hf⟩ := find?_setChannel_cases hf
  · exact hd
  · exact h id' c hf

end Publisher

/-! ## Moves -/

namespace Presentation

/-- One thing that a publisher does. -/
inductive Move (w : World) : Presentation → Presentation → Prop where
  | manifest (p : Publisher) (j : Journal) (result : Except Failure Unit) : Move w ⟨p, j⟩ ⟨p, .manifest result :: j⟩
  | added {p : Publisher} {id : TrackId} (h : p.channels.find? id = none) (j : Journal) (kind : Kind) (c : Channel)
      (hc : c = .start p.settings id kind ∨ ∃ origin, c = (Channel.start p.settings id kind).setOrigin origin) :
      Move w ⟨p, j⟩ ⟨{ p.setChannel id c with gate := p.gate.addTrack id kind },
        .announced (.added (Publisher.representation p.settings id kind)) :: j⟩
  | counted {p : Publisher} (h : p.origin = none) (j : Journal) (origin : Nanos) : Move w ⟨p, j⟩
      ⟨{ p with origin := some origin, channels := p.channels.mapValues (·.setOrigin origin) }, j⟩
  | fed {p : Publisher} {id : TrackId} {c : Channel} (h : p.channels.find? id = some c) (j : Journal) (frame : Frame) :
      Move w ⟨p, j⟩ ⟨p.setChannel id (c.feed w.outlet p.settings id frame j).1.channel,
        (c.feed w.outlet p.settings id frame j).2⟩
  | held {p : Publisher} {id : TrackId} {c : Channel} {window : Window} (h : p.channels.find? id = some c)
      (hh : c.isHolding = true) (hw : p.window? id c = some window) (hv : (p.gate.judge window).1 = .hold) (j : Journal) :
      Move w ⟨p, j⟩ ⟨{ p with gate := (p.gate.judge window).2 }, j⟩
  | discarded {p : Publisher} {id : TrackId} {c : Channel} {window : Window} (h : p.channels.find? id = some c)
      (hh : c.isHolding = true) (hw : p.window? id c = some window) (hv : (p.gate.judge window).1 = .discard)
      (j : Journal) : Move w ⟨p, j⟩
        ⟨{ p with gate := (p.gate.judge window).2 }.setChannel id { c with slot := c.slot.clear }, j⟩
  | released {p : Publisher} {id : TrackId} {c : Channel} {window : Window} (h : p.channels.find? id = some c)
      (hh : c.isHolding = true) (hw : p.window? id c = some window) (hv : (p.gate.judge window).1 = .publish)
      (j : Journal) : Move w ⟨p, j⟩
        ⟨{ p with gate := (p.gate.judge window).2 }.setChannel id (c.publish w.outlet p.settings id j).1.2,
          (c.publish w.outlet p.settings id j).2⟩
  | forced (p : Publisher) (j : Journal) : Move w ⟨p, j⟩ ⟨{ p with gate := p.gate.forceAudioOnly }, j⟩
  | drained {p : Publisher} {id : TrackId} {c : Channel} (h : p.channels.find? id = some c) (hk : c.kind = .audio)
      (j : Journal) : Move w ⟨p, j⟩
        ⟨p.setChannel id (c.drain w.outlet p.settings id j).1.2, (c.drain w.outlet p.settings id j).2⟩
  | rated {p : Publisher} {id : TrackId} {c : Channel} (h : p.channels.find? id = some c) (j : Journal) (bitrate : Nat) :
      Move w ⟨p, j⟩ ⟨p.setChannel id { c with segmenter := c.segmenter.setBitrate bitrate },
        .announced (.bitrate c.adaptationSet (toString id) bitrate) :: j⟩
  | removed {p : Publisher} {id : TrackId} {c : Channel} (h : p.channels.find? id = some c) (j : Journal) :
      Move w ⟨p, j⟩ ⟨{ p with channels := p.channels.erase id, gate := p.gate.removeTrack id },
        .announced (.removed c.adaptationSet (toString id)) :: (c.drain w.outlet p.settings id j).2⟩

def Moves (w : World) : Presentation → Presentation → Prop := Relation.ReflTransGen (Move w)

/-- The output was changed, which needs a publisher without tracks, or nothing but the folder was asked for. -/
inductive Relocated (s : Presentation) : Presentation → Prop where
  | refused : Relocated s s
  | failed (folder : Path) (e : IoError) : Relocated s ⟨s.publisher, .folder folder (.error e) :: s.journal⟩
  | done (folder : Path) (baseName : String) (seconds : Nat) (h : ∀ id, s.publisher.channels.find? id = none)
      (hname : Settings.checkBaseName baseName = .ok ()) (hseconds : 0 < seconds) : Relocated s
        ⟨⟨{ s.publisher.settings with folder, baseName, segment := { s.publisher.settings.segment with seconds } },
            s.publisher.channels, .empty, none⟩,
          .announced (.relocated (folder.join (baseName ++ ".mpd")) seconds) :: .folder folder (.ok ()) :: s.journal⟩

variable {w : World} {s t : Presentation}

theorem Move.settings (h : Move w s t) : t.publisher.settings = s.publisher.settings := by
  cases h <;> rfl

theorem Move.sorted (h : Move w s t) (hs : s.publisher.channels.Sorted) : t.publisher.channels.Sorted := by
  cases h with
  | manifest => exact hs
  | added => exact hs.insert _ _
  | counted => exact hs.mapValues _
  | fed => exact hs.insert _ _
  | held => exact hs
  | discarded => exact hs.insert _ _
  | released => exact hs.insert _ _
  | forced => exact hs
  | drained => exact hs.insert _ _
  | rated => exact hs.insert _ _
  | removed => exact hs.erase _

theorem Move.sealed (h : Move w s t) (hs : s.publisher.Sealed) : t.publisher.Sealed := by
  cases h with
  | manifest => exact hs
  | @added p id hfree j kind c hc =>
    have hset : Publisher.Sealed (p.setChannel id c) := by
      refine hs.setChannel ?_
      rcases hc with rfl | ⟨origin, rfl⟩ <;> exact Channel.sealed_start p.settings id kind
    exact hset
  | counted =>
    intro id c hf
    rw [SortedMap.find?_mapValues, Option.map_eq_some_iff] at hf
    obtain ⟨b, hb, rfl⟩ := hf
    exact hs id b hb
  | fed h => exact hs.setChannel ((Channel.feed_heads w _ _ _ _ _).2.1 (hs _ _ h))
  | held => exact hs
  | @discarded p id c window h =>
    have hset : Publisher.Sealed (p.setChannel id { c with slot := c.slot.clear }) := hs.setChannel c.slot.sealed_clear
    exact hset
  | @released p id c window h hh =>
    obtain ⟨f, hf⟩ := hs id c h (by simpa [Channel.isHolding] using hh)
    have hset : Publisher.Sealed (p.setChannel id { c with slot := c.slot.clear }) := hs.setChannel c.slot.sealed_clear
    rw [(Channel.publish_emits w p.settings id hf _).1]
    exact hset
  | forced => exact hs
  | drained h => exact hs.setChannel (Channel.drain_emits w _ _ (hs _ _ h) _).2.1
  | @rated p id c h =>
    have hslot : c.slot.Sealed := hs id c h
    exact hs.setChannel hslot
  | removed => exact fun id' c' hf => hs id' c' (Publisher.find?_erase_cases hf).2

/-- **What every move keeps holds after any number of moves.** -/
theorem Moves.invariant (inv : Presentation → Prop) (step : ∀ s t, Move w s t → inv s → inv t) (h : Moves w s t)
    (hs : inv s) : inv t := by
  induction h with
  | refl => exact hs
  | tail _ hm ih => exact step _ _ hm ih

theorem Moves.settings (h : Moves w s t) : t.publisher.settings = s.publisher.settings :=
  h.invariant (fun u => u.publisher.settings = s.publisher.settings) (fun _ _ hm hu => hm.settings.trans hu) rfl

theorem Moves.sorted (h : Moves w s t) (hs : s.publisher.channels.Sorted) : t.publisher.channels.Sorted :=
  h.invariant (fun u => u.publisher.channels.Sorted) (fun _ _ hm hu => hm.sorted hu) hs

end Presentation

/-! ## Operations -/

namespace Publisher

open Presentation (Move Moves Relocated)

variable {w : World} {p : Publisher} {j k : Journal}

theorem addTrack_moves (id : TrackId) (kind : Kind) :
    let out := p.addTrack w.outlet id kind j
    Moves w ⟨p, j⟩ ⟨out.1.2, out.2⟩ ∧ out.2.published = j.published := by
  unfold addTrack
  cases hc : p.channels.find? id with
  | some c =>
    rw [if_pos (by simp [SortedMap.contains, hc])]
    exact ⟨.refl, rfl⟩
  | none =>
    rw [if_neg (by simp [SortedMap.contains, hc])]
    simp only [StateM.bind_apply, World.announce_apply]
    refine ⟨.single (.added hc j kind _ ?_), rfl⟩
    cases p.origin with
    | none => exact .inl rfl
    | some origin => exact .inr ⟨origin, rfl⟩

theorem setBitrate_moves (id : TrackId) (kilobits : Nat) :
    let out := p.setBitrate w.outlet id kilobits j
    Moves w ⟨p, j⟩ ⟨out.1.2, out.2⟩ ∧ out.2.published = j.published := by
  unfold setBitrate
  cases hc : p.channels.find? id with
  | none => exact ⟨.refl, rfl⟩
  | some c => exact ⟨.single (.rated hc j _), rfl⟩

theorem removeTrack_moves (id : TrackId) :
    let out := p.removeTrack w.outlet id j
    Moves w ⟨p, j⟩ ⟨out.1.2, out.2⟩ ∧ (out.2 = j ∨ ∃ result rest, out.2 = .manifest result :: rest) := by
  unfold removeTrack
  cases hc : p.channels.find? id with
  | none => exact ⟨.refl, .inl rfl⟩
  | some c =>
    simp only [StateM.bind_apply, World.announce_apply, World.writeManifest_apply]
    exact ⟨.tail (.single (.removed hc j)) (.manifest _ _ _), .inr ⟨_, _, rfl⟩⟩

theorem shutdown_moves :
    let out := p.shutdown w.outlet j
    Moves w ⟨p, j⟩ ⟨out.1.2, out.2⟩ ∧ ∃ result rest, out.2 = .manifest result :: rest := by
  let inv : List TrackId → Publisher → Journal → Prop := fun _ q k => Moves w ⟨p, j⟩ ⟨q, k⟩
  have hmoves := StateM.foldlM_invariant (f := fun q id => Prod.snd <$> q.removeTrack w.outlet id) inv (by
    intro id rest q k h
    exact Relation.ReflTransGen.trans h (removeTrack_moves id).1) p.channels.keys p j .refl
  exact ⟨.tail hmoves (.manifest _ _ _), _, _, rfl⟩

theorem configure_relocated (folder : Path) (baseName : String) (seconds : Nat) : Relocated ⟨p, j⟩
    ⟨(p.configure w.outlet folder baseName seconds j).1.2, (p.configure w.outlet folder baseName seconds j).2⟩ := by
  unfold configure
  cases hc : p.checkConfigure baseName seconds with
  | error failure => exact .refused
  | ok =>
    simp only [StateM.bind_apply, World.createFolders_apply]
    cases w.createFolders j folder with
    | error e => exact .failed folder e
    | ok =>
      obtain ⟨hnone, hname, hseconds⟩ := (checkConfigure_eq_ok baseName seconds).1 hc
      refine .done folder baseName seconds hnone ?_ hseconds
      unfold Settings.checkBaseName
      exact if_pos hname

/-! ### Draining and cycles -/

/-- Whether the entries still to come are those of the publisher, one for each track. -/
structure Current (entries : List (TrackId × Channel)) (p : Publisher) : Prop where
  present : ∀ e ∈ entries, p.channels.find? e.1 = some e.2
  nodup : (entries.map Prod.fst).Nodup

theorem Current.setChannel {e : TrackId × Channel} {rest : List (TrackId × Channel)} (h : Current (e :: rest) p)
    (d : Channel) : Current rest (p.setChannel e.1 d) := by
  obtain ⟨hnot, hnodup⟩ := List.nodup_cons.1 h.nodup
  refine ⟨fun e' he' => ?_, hnodup⟩
  have hne : e.1 ≠ e'.1 := fun heq => hnot (heq ▸ List.mem_map_of_mem he')
  rw [find?_setChannel, if_neg hne]
  exact h.present e' (List.mem_cons_of_mem e he')

theorem Current.tail {e : TrackId × Channel} {rest : List (TrackId × Channel)} (h : Current (e :: rest) p) :
    Current rest p := ⟨fun e' he' => h.present e' (List.mem_cons_of_mem e he'), (List.nodup_cons.1 h.nodup).2⟩

theorem current_entries (h : p.channels.Sorted) : Current p.channels.entries p := by
  refine ⟨fun e he => (SortedMap.mem_entries h).1 he, ?_⟩
  exact List.Pairwise.imp (fun hlt => Nat.ne_of_lt hlt) h

theorem Current.filter {entries : List (TrackId × Channel)} (h : Current entries p) (q : TrackId × Channel → Bool) :
    Current (entries.filter q) p :=
  ⟨fun e he => h.present e (List.mem_filter.1 he).1, (List.filter_sublist.map Prod.fst).nodup h.nodup⟩

theorem current_ready (h : p.channels.Sorted) : Current p.ready p ∧ ∀ e ∈ p.ready, e.2.isHolding = true := by
  have hholding := (current_entries h).filter (·.2.isHolding)
  have hvideo := hholding.filter (·.2.kind = .video)
  have haudio := hholding.filter (·.2.kind = .audio)
  unfold ready
  refine ⟨⟨fun e he => ?_, ?_⟩, fun e he => ?_⟩
  · rcases List.mem_append.1 he with he | he
    · exact hvideo.present e he
    · exact haudio.present e he
  · rw [List.map_append]
    refine List.nodup_append.2 ⟨hvideo.nodup, haudio.nodup, fun x hx y hy heq => ?_⟩
    obtain ⟨e, he, rfl⟩ := List.mem_map.1 hx
    obtain ⟨e', he', rfl⟩ := List.mem_map.1 hy
    -- one track would have to carry both kinds
    have hsame : e.2 = e'.2 := by
      have hp := hvideo.present e he
      rw [heq, haudio.present e' he'] at hp
      exact (Option.some.inj hp).symm
    have hv : e.2.kind = .video := by simpa using (List.mem_filter.1 he).2
    have ha : e'.2.kind = .audio := by simpa using (List.mem_filter.1 he').2
    rw [hsame, ha] at hv
    cases hv
  · rcases List.mem_append.1 he with he | he <;> exact (List.mem_filter.1 (List.mem_filter.1 he).1).2

/-- **A drain of the audio tracks** writes the manifest last when it published a file. -/
theorem drainAudio_moves (hsorted : p.channels.Sorted) (hsealed : p.Sealed) :
    let out := p.drainAudio w.outlet j
    Moves w ⟨p, j⟩ ⟨out.1.2, out.2⟩ ∧
      (out.2.published = j.published ∨ ∃ result rest, out.2 = .manifest result :: rest) := by
  let inv : List (TrackId × Channel) → Nat × Publisher → Journal → Prop := fun rest acc k =>
    (Moves w ⟨p, j⟩ ⟨acc.2, k⟩ ∧ (acc.1 = 0 → k.published = j.published)) ∧
    (Current rest acc.2 ∧ ∀ e ∈ rest, e.2.kind = .audio) ∧ acc.2.Sealed
  have hcurrent := (current_entries hsorted).filter (·.2.kind = .audio)
  have hstart : inv (p.channels.entries.filter (·.2.kind = .audio)) (0, { p with gate := p.gate.forceAudioOnly }) j :=
    ⟨⟨.single (.forced p j), fun _ => rfl⟩, ⟨⟨hcurrent.present, hcurrent.nodup⟩,
      fun e he => by simpa using (List.mem_filter.1 he).2⟩, hsealed⟩
  obtain ⟨⟨hmoves, hcount⟩, -⟩ := StateM.foldlM_invariant (f := drainAudio.drainOne w.outlet) inv (by
    rintro ⟨id, c⟩ rest ⟨count, q⟩ k ⟨⟨hmoves, hcount⟩, ⟨hcurrent, hkinds⟩, hsealed⟩
    have hc := hcurrent.present (id, c) List.mem_cons_self
    have hmove : Move w ⟨q, k⟩ _ := .drained hc (hkinds (id, c) List.mem_cons_self) k
    obtain ⟨-, -, paths, hlen, hemits⟩ := Channel.drain_emits w q.settings id (hsealed id c hc) k
    refine ⟨⟨Relation.ReflTransGen.tail hmoves hmove, fun hzero => ?_⟩,
      ⟨hcurrent.setChannel _, fun e he => hkinds e (List.mem_cons_of_mem _ he)⟩, hmove.sealed hsealed⟩
    obtain ⟨hbefore, hnow⟩ : count = 0 ∧ (c.drain w.outlet q.settings id k).1.1 = 0 := Nat.add_eq_zero_iff.1 hzero
    rw [hnow, List.length_eq_zero_iff] at hlen
    rw [hlen] at hemits
    exact hemits.published_eq.trans ((List.append_nil _).trans (hcount hbefore))) _ _ j hstart
  rw [drainAudio_eq]
  dsimp only
  generalize List.foldlM (drainAudio.drainOne w.outlet) _ _ j = out at hmoves hcount ⊢
  by_cases hwritten : out.1.1 = 0
  · rw [if_pos hwritten]
    exact ⟨hmoves, .inl (hcount hwritten)⟩
  · rw [if_neg hwritten]
    exact ⟨hmoves.tail (.manifest _ _ _), .inr ⟨_, _, rfl⟩⟩

theorem fixOrigin_moves (frames : List (TrackId × Frame)) : Moves w ⟨p, j⟩ ⟨p.fixOrigin frames, j⟩ := by
  unfold fixOrigin
  split
  · rename_i origin hnone _
    exact .single (.counted hnone j origin)
  · exact .refl

theorem feedAll_moves (frames : List (TrackId × Frame)) :
    let out := frames.foldlM (feed w.outlet) (.empty, p) j
    Moves w ⟨p, j⟩ ⟨out.1.2, out.2⟩ ∧ out.1.1.published = [] ∧ out.2.published = j.published := by
  let inv : List (TrackId × Frame) → CycleReport × Publisher → Journal → Prop := fun _ acc k =>
    Moves w ⟨p, j⟩ ⟨acc.2, k⟩ ∧ acc.1.published = [] ∧ k.published = j.published
  refine StateM.foldlM_invariant inv ?_ frames (.empty, p) j ⟨.refl, rfl, rfl⟩
  rintro ⟨id, frame⟩ rest ⟨report, q⟩ k ⟨hmoves, hreport, hpublished⟩
  unfold feed
  dsimp only
  cases hc : q.channels.find? id with
  | none => exact ⟨hmoves, hreport, hpublished⟩
  | some c =>
    obtain ⟨-, -, hheads⟩ := Channel.feed_heads w q.settings id c frame k
    refine ⟨hmoves.tail (.fed hc k frame), ?_, hheads.published_eq.trans hpublished⟩
    simp only [StateM.bind_apply, StateM.pure_apply]
    split
    · exact hreport
    · exact hreport

/-- **Releasing the finished segments** lists exactly the files that it published. -/
theorem releaseAll_moves {entries : List (TrackId × Channel)} {report : CycleReport} (hcurrent : Current entries p)
    (hholding : ∀ e ∈ entries, e.2.isHolding = true) (hsealed : p.Sealed) (hreport : report.published = []) :
    let out := entries.foldlM (release w.outlet) (report, p) j
    Moves w ⟨p, j⟩ ⟨out.1.2, out.2⟩ ∧ out.2.published = j.published ++ out.1.1.published := by
  let inv : List (TrackId × Channel) → CycleReport × Publisher → Journal → Prop := fun rest acc k =>
    (Moves w ⟨p, j⟩ ⟨acc.2, k⟩ ∧ k.published = j.published ++ acc.1.published) ∧
    (Current rest acc.2 ∧ ∀ e ∈ rest, e.2.isHolding = true) ∧ acc.2.Sealed
  have hstart : inv entries (report, p) j :=
    ⟨⟨.refl, by rw [hreport, List.append_nil]⟩, ⟨hcurrent, hholding⟩, hsealed⟩
  refine (StateM.foldlM_invariant (f := release w.outlet) inv ?_ entries (report, p) j hstart).1
  rintro ⟨id, c⟩ rest ⟨report, q⟩ k ⟨⟨hmoves, hpublished⟩, ⟨hcurrent, hholding⟩, hsealed⟩
  have hc := hcurrent.present (id, c) List.mem_cons_self
  have hh := hholding (id, c) List.mem_cons_self
  have hrest : ∀ e ∈ rest, e.2.isHolding = true := fun e he => hholding e (List.mem_cons_of_mem _ he)
  unfold release
  dsimp only
  cases hw : q.window? id c with
  | none => exact ⟨⟨hmoves, hpublished⟩, ⟨hcurrent.tail, hrest⟩, hsealed⟩
  | some window =>
    dsimp only
    cases hv : (q.gate.judge window).1 with
    | hold =>
      have hmove : Move w ⟨q, k⟩ _ := .held hc hh hw hv k
      exact ⟨⟨hmoves.tail hmove, hpublished⟩, ⟨⟨hcurrent.tail.present, hcurrent.tail.nodup⟩, hrest⟩, hmove.sealed hsealed⟩
    | discard =>
      have hmove : Move w ⟨q, k⟩ _ := .discarded hc hh hw hv k
      have hnext := hcurrent.setChannel { c with slot := c.slot.clear }
      exact ⟨⟨hmoves.tail hmove, hpublished⟩, ⟨⟨hnext.present, hnext.nodup⟩, hrest⟩, hmove.sealed hsealed⟩
    | publish =>
      have hmove : Move w ⟨q, k⟩ _ := .released hc hh hw hv k
      obtain ⟨f, hf⟩ := hsealed id c hc (by simpa [Channel.isHolding] using hh)
      obtain ⟨-, hout⟩ := Channel.publish_emits w q.settings id hf k
      have hnext := hcurrent.setChannel (c.publish w.outlet q.settings id k).1.2
      refine ⟨⟨hmoves.tail hmove, ?_⟩, ⟨⟨hnext.present, hnext.nodup⟩, hrest⟩, hmove.sealed hsealed⟩
      simp only [StateM.bind_apply, StateM.pure_apply]
      rcases hout with ⟨e, hresult, hemits, -⟩ | ⟨hresult, hemits, -⟩
      · rw [hresult, hemits.published_eq, List.append_nil]
        exact hpublished
      · rw [hresult, hemits.published_eq, hpublished, List.append_assoc]

/-- **A cycle** reports exactly the files that it published, and writes the manifest last when there are any. -/
theorem cycle_moves (frames : List (TrackId × Frame)) (hsorted : p.channels.Sorted) (hsealed : p.Sealed) :
    let out := p.cycle w.outlet frames j
    Moves w ⟨p, j⟩ ⟨out.1.2, out.2⟩ ∧ out.2.published = j.published ++ out.1.1.published ∧
      (out.1.1.published = [] ∨ ∃ result rest, out.2 = .manifest result :: rest) := by
  have horigin : Moves w ⟨p, j⟩ ⟨p.fixOrigin frames, j⟩ := fixOrigin_moves frames
  obtain ⟨hfeeds, hreport, hpublished⟩ := feedAll_moves (w := w) (p := p.fixOrigin frames) (j := j) frames
  unfold cycle
  simp only [StateM.bind_apply]
  generalize frames.foldlM (feed w.outlet) (.empty, p.fixOrigin frames) j = fed at hfeeds hreport hpublished ⊢
  have hfed : Moves w ⟨p, j⟩ ⟨fed.1.2, fed.2⟩ := Relation.ReflTransGen.trans horigin hfeeds
  obtain ⟨hcurrent, hholding⟩ := current_ready (hfed.sorted hsorted)
  have hsealed' : fed.1.2.Sealed :=
    hfed.invariant (fun t => t.publisher.Sealed) (fun _ _ hm ht => hm.sealed ht) hsealed
  obtain ⟨hreleases, hlisted⟩ := releaseAll_moves (w := w) (j := fed.2) hcurrent hholding hsealed' hreport
  rw [hpublished] at hlisted
  generalize fed.1.2.ready.foldlM (release w.outlet) (fed.1.1, fed.1.2) fed.2 = out at hreleases hlisted ⊢
  have hmoves := hfed.trans hreleases
  cases hempty : out.1.1.published.isEmpty with
  | true => exact ⟨hmoves, hlisted, .inl (List.isEmpty_iff.1 hempty)⟩
  | false =>
    simp only [Bool.false_eq_true, if_false, StateM.bind_apply, World.writeManifest_apply]
    cases w.writeManifest out.2 with
    | ok => exact ⟨hmoves.tail (.manifest _ _ _), hlisted, .inr ⟨_, _, rfl⟩⟩
    | error failure => exact ⟨hmoves.tail (.manifest _ _ _), hlisted, .inr ⟨_, _, rfl⟩⟩

end Publisher

namespace Presentation

variable {w : World}

/-- What moves are made on: each track is listed once, and what its slot holds is a media segment. -/
structure Sane (s : Presentation) : Prop where
  sorted : s.publisher.channels.Sorted
  sealed : s.publisher.Sealed

theorem Move.sane {s t : Presentation} (h : Move w s t) (hs : s.Sane) : t.Sane := ⟨h.sorted hs.sorted, h.sealed hs.sealed⟩

theorem Relocated.sane {s t : Presentation} (h : Relocated s t) (hs : s.Sane) : t.Sane := by
  cases h with
  | refused => exact hs
  | failed => exact ⟨hs.sorted, hs.sealed⟩
  | done folder baseName seconds hnone =>
    refine ⟨hs.sorted, fun id c hf => ?_⟩
    cases hf.symm.trans (hnone id)

/-- **Every operation is a sequence of moves, or a change of the output.**  One that publishes a file writes the manifest
last. -/
theorem apply_moves {s : Presentation} (hs : s.Sane) (op : Operation) :
    (Moves w s (s.apply w op) ∨ Relocated s (s.apply w op)) ∧
    ((s.apply w op).journal.published = s.journal.published ∨
      ∃ result rest, (s.apply w op).journal = .manifest result :: rest) := by
  cases op with
  | addTrack id kind =>
    obtain ⟨hmoves, hpublished⟩ := Publisher.addTrack_moves (w := w) (p := s.publisher) (j := s.journal) id kind
    exact ⟨.inl hmoves, .inl hpublished⟩
  | removeTrack id =>
    obtain ⟨hmoves, hlast⟩ := Publisher.removeTrack_moves (w := w) (p := s.publisher) (j := s.journal) id
    exact ⟨.inl hmoves, hlast.imp (congrArg Journal.published) fun h => h⟩
  | cycle frames =>
    obtain ⟨hmoves, hpublished, hlast⟩ :=
      Publisher.cycle_moves (w := w) (j := s.journal) frames hs.sorted hs.sealed
    refine ⟨.inl hmoves, hlast.imp (fun hnone => ?_) fun h => h⟩
    rw [hnone, List.append_nil] at hpublished
    exact hpublished
  | setBitrate id kilobits =>
    obtain ⟨hmoves, hpublished⟩ := Publisher.setBitrate_moves (w := w) (p := s.publisher) (j := s.journal) id kilobits
    exact ⟨.inl hmoves, .inl hpublished⟩
  | drainAudio =>
    obtain ⟨hmoves, hlast⟩ := Publisher.drainAudio_moves (w := w) (j := s.journal) hs.sorted hs.sealed
    exact ⟨.inl hmoves, hlast⟩
  | configure folder baseName seconds =>
    have h := Publisher.configure_relocated (w := w) (p := s.publisher) (j := s.journal) folder baseName seconds
    refine ⟨.inr h, .inl ?_⟩
    show (s.publisher.configure w.outlet folder baseName seconds s.journal).2.published = _
    generalize s.publisher.configure w.outlet folder baseName seconds s.journal = out at h
    obtain ⟨⟨result, q⟩, k⟩ := out
    cases h <;> rfl
  | shutdown =>
    obtain ⟨hmoves, hlast⟩ := Publisher.shutdown_moves (w := w) (p := s.publisher) (j := s.journal)
    exact ⟨.inl hmoves, .inr hlast⟩

/-- **What every move and every change of the output keeps holds after every run.** -/
theorem run_kept {inv : Presentation → Prop} (hmove : ∀ s t, Move w s t → s.Sane → inv s → inv t)
    (hrelocated : ∀ s t, Relocated s t → inv s → inv t) {settings : Settings} (hstart : inv (start settings))
    (ops : List Operation) : ((start settings).run w ops).Sane ∧ inv ((start settings).run w ops) := by
  refine run_invariant (fun s => s.Sane ∧ inv s) (fun s op hs => ?_) ops (start settings) ⟨⟨SortedMap.sorted_empty, ?_⟩,
    hstart⟩
  · rcases (apply_moves (w := w) hs.1 op).1 with h | h
    · exact h.invariant (fun s => s.Sane ∧ inv s) (fun s t hm hs => ⟨hm.sane hs.1, hmove s t hm hs.1 hs.2⟩) hs
    · exact ⟨h.sane hs.1, hrelocated _ _ h hs.2⟩
  · intro id c hf
    cases hf

end Presentation

end Packager

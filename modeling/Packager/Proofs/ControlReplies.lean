import Mathlib.Algebra.Ring.Nat
import Packager.Proofs.Moves
/-!
# Proofs.ControlReplies — what the reply to a control event tells

A control event is answered by a map with one member, which is null or the wording of a failure.  After a failure the
publisher is what it was, and the manifest heard nothing (`Unchanged`).  Null means that the request was carried out
(`CarriedOut`), which changes something in every case, so the reply tells which of the two it was; and every request that
there is no reason to refuse is carried out (`control_reply`).
-/
namespace Packager

/-- Whether two publishers differ in one track and in the gate at most. -/
structure Publisher.Beside (p q : Publisher) (id : TrackId) : Prop where
  settings : q.settings = p.settings
  origin : q.origin = p.origin
  others : ∀ id', id ≠ id' → q.channels.find? id' = p.channels.find? id'

namespace Presentation

/-- Whether nothing came of a request: at most a folder was asked for, in vain. -/
def Unchanged (s t : Presentation) : Prop :=
  t.publisher = s.publisher ∧
    (t.journal = s.journal ∨ ∃ folder e, t.journal = .folder folder (.error e) :: s.journal)

/-- Whether there is no reason to refuse a request. -/
def Admits (w : World) (s : Presentation) : ControlEvent → Prop
  | .configure folder baseName seconds => (∀ id, s.publisher.channels.find? id = none) ∧
      Settings.isBaseName baseName = true ∧ 0 < seconds ∧ w.createFolders s.journal folder = .ok ()
  | .addSegmenter id _ => s.publisher.channels.find? id = none
  | .removeSegmenter id | .setBitrate id _ => ∃ c, s.publisher.channels.find? id = some c

/-- What it means that a request was carried out. -/
inductive CarriedOut (w : World) (s t : Presentation) : ControlEvent → Prop where
  /-- Without tracks the output starts over in a folder that is there. -/
  | configured {folder : Path} {baseName : String} {seconds : Nat} (hnone : ∀ id, s.publisher.channels.find? id = none)
      (hname : Settings.isBaseName baseName = true) (hseconds : 0 < seconds)
      (hp : t.publisher =
        ⟨{ s.publisher.settings with folder, baseName, segment := { s.publisher.settings.segment with seconds } },
          s.publisher.channels, .empty, none⟩)
      (hj : t.journal = .announced (.relocated (folder.join (baseName ++ ".mpd")) seconds) :: .folder folder (.ok ()) ::
        s.journal) : CarriedOut w s t (.configure folder baseName seconds)
  /-- A track that was not there is, empty, and counts from the origin of the others. -/
  | added {id : TrackId} {kind : Kind} {c : Channel} (hfree : s.publisher.channels.find? id = none)
      (hc : t.publisher.channels.find? id = some c) (hkind : c.kind = kind)
      (hnew : c.described = false ∧ c.slot.isEmpty = true ∧ c.segmenter.assembly.fragment.isEmpty = true)
      (hcounts : c.segmenter.assembly.clock.zero? = s.publisher.origin)
      (hbeside : s.publisher.Beside t.publisher id) (hgate : t.publisher.gate = s.publisher.gate.addTrack id kind)
      (hj : t.journal = .announced (.added (Publisher.representation s.publisher.settings id kind)) :: s.journal) :
      CarriedOut w s t (.addSegmenter id kind)
  /-- A track that was there is not; it was drained first and had nothing left. -/
  | removed {id : TrackId} {c d : Channel} {paths : List Path} {k : Journal} {result : Except Failure Unit}
      (hc : s.publisher.channels.find? id = some c) (hgone : t.publisher.channels.find? id = none)
      (hbeside : s.publisher.Beside t.publisher id) (hgate : t.publisher.gate = s.publisher.gate.removeTrack id)
      (hdrain : c.drain w.outlet s.publisher.settings id s.journal = ((paths.length, d), k))
      (hput : Emits s.publisher.settings id c.kind s.journal paths k)
      (hempty : d.slot.isEmpty = true ∧ d.segmenter.assembly.fragment.isEmpty = true)
      (hj : t.journal = .manifest result :: .announced (.removed c.adaptationSet (toString id)) :: k) :
      CarriedOut w s t (.removeSegmenter id)
  /-- A track has the bitrate, or the highest there is, and is otherwise what it was. -/
  | rated {id : TrackId} {kilobits bitrate : Nat} {c : Channel} (hrate : bitrate = min (kilobits * 1000) (2 ^ 32 - 1))
      (hc : s.publisher.channels.find? id = some c)
      (hd : t.publisher.channels.find? id = some { c with segmenter := c.segmenter.setBitrate bitrate })
      (hbeside : s.publisher.Beside t.publisher id) (hgate : t.publisher.gate = s.publisher.gate)
      (hj : t.journal = .announced (.bitrate c.adaptationSet (toString id) bitrate) :: s.journal) :
      CarriedOut w s t (.setBitrate id kilobits)

/-- **Carrying out a request changes something**: the manifest is told. -/
theorem CarriedOut.not_unchanged {w : World} {s t : Presentation} {request : ControlEvent}
    (h : CarriedOut w s t request) : ¬Unchanged s t := by
  have hlonger : ∀ {news : Announcement} {k : Journal}, t.journal = .announced news :: k → s.journal.length ≤ k.length →
      ¬Unchanged s t := by
    rintro news k hj hle ⟨-, hsame | ⟨folder, e, hsame⟩⟩
    · have hlen := congrArg List.length (hj.symm.trans hsame)
      rw [List.length_cons] at hlen
      omega
    · cases (List.cons.inj (hj.symm.trans hsame)).1
  cases h with
  | configured _ _ _ _ hj => exact hlonger hj (Nat.le_succ _)
  | added _ _ _ _ _ _ _ hj => exact hlonger hj (Nat.le_refl _)
  | removed hc hgone =>
    rintro ⟨hp, -⟩
    rw [hp, hc] at hgone
    cases hgone
  | rated _ _ _ _ _ hj => exact hlonger hj (Nat.le_refl _)

/-- What a request with a result came to. -/
def Answers (w : World) (s t : Presentation) (request : ControlEvent) : Except Failure Unit → Prop
  | .ok () => Admits w s request ∧ CarriedOut w s t request
  | .error _ => ¬Admits w s request ∧ Unchanged s t

end Presentation

namespace Publisher

open Presentation (Answers)

variable {w : World} {p : Publisher} {j : Journal}

theorem beside_setChannel (p : Publisher) (id : TrackId) (d : Channel) : p.Beside (p.setChannel id d) id :=
  ⟨rfl, rfl, fun id' hne => (p.find?_setChannel id id' d).trans (if_neg hne)⟩

theorem configure_answers (folder : Path) (baseName : String) (seconds : Nat) :
    let out := p.configure w.outlet folder baseName seconds j
    Answers w ⟨p, j⟩ ⟨out.1.2, out.2⟩ (.configure folder baseName seconds) out.1.1 := by
  unfold configure
  cases hc : p.checkConfigure baseName seconds with
  | error failure =>
    refine ⟨fun ⟨hnone, hname, hseconds, _⟩ => ?_, rfl, .inl rfl⟩
    cases hc.symm.trans ((checkConfigure_eq_ok baseName seconds).2 ⟨hnone, hname, hseconds⟩)
  | ok =>
    obtain ⟨hnone, hname, hseconds⟩ := (checkConfigure_eq_ok baseName seconds).1 hc
    simp only [StateM.bind_apply, World.createFolders_apply]
    cases hfolder : w.createFolders j folder with
    | error e =>
      refine ⟨fun ⟨_, _, _, hcreated⟩ => ?_, rfl, .inr ⟨folder, e, rfl⟩⟩
      cases hfolder.symm.trans hcreated
    | ok => exact ⟨⟨hnone, hname, hseconds, hfolder⟩, .configured hnone hname hseconds rfl rfl⟩

theorem addTrack_answers (id : TrackId) (kind : Kind) :
    let out := p.addTrack w.outlet id kind j
    Answers w ⟨p, j⟩ ⟨out.1.2, out.2⟩ (.addSegmenter id kind) out.1.1 := by
  unfold addTrack
  cases hfree : p.channels.find? id with
  | some c =>
    rw [if_pos (by simp [SortedMap.contains, hfree])]
    have htaken : p.channels.find? id ≠ none := by simp [hfree]
    exact ⟨htaken, rfl, .inl rfl⟩
  | none =>
    rw [if_neg (by simp [SortedMap.contains, hfree])]
    simp only [StateM.bind_apply, World.announce_apply]
    have hset : ∀ c : Channel, c.kind = kind →
        c.described = false ∧ c.slot.isEmpty = true ∧ c.segmenter.assembly.fragment.isEmpty = true →
        c.segmenter.assembly.clock.zero? = p.origin →
        Presentation.CarriedOut w ⟨p, j⟩ ⟨{ p.setChannel id c with gate := p.gate.addTrack id kind },
          .announced (.added (representation p.settings id kind)) :: j⟩ (.addSegmenter id kind) := by
      intro c hkind hnew hcounts
      have hbeside := p.beside_setChannel id c
      refine .added hfree ?_ hkind hnew hcounts ⟨rfl, rfl, hbeside.others⟩ rfl rfl
      exact (p.find?_setChannel id id c).trans (if_pos rfl)
    refine ⟨hfree, ?_⟩
    cases ho : p.origin with
    | none => exact hset _ (by cases kind <;> rfl) ⟨rfl, rfl, rfl⟩ ho.symm
    | some origin => exact hset _ (by cases kind <;> rfl) ⟨rfl, rfl, rfl⟩ ho.symm

theorem removeTrack_answers (id : TrackId) (hsealed : p.Sealed) :
    let out := p.removeTrack w.outlet id j
    Answers w ⟨p, j⟩ ⟨out.1.2, out.2⟩ (.removeSegmenter id) out.1.1 := by
  unfold removeTrack
  cases hc : p.channels.find? id with
  | none =>
    have hmissing : ¬∃ c, p.channels.find? id = some c := by simp [hc]
    exact ⟨hmissing, rfl, .inl rfl⟩
  | some c =>
    obtain ⟨-, -, paths, hlen, hput⟩ := Channel.drain_emits w p.settings id (hsealed id c hc) j
    obtain ⟨-, hslot, hfragment⟩ := Channel.drain_closes w p.settings id c j
    simp only [StateM.bind_apply, World.announce_apply, World.writeManifest_apply]
    refine ⟨⟨c, hc⟩, .removed hc ?_ ⟨rfl, rfl, fun id' hne => ?_⟩ rfl ?_ hput ⟨hslot, hfragment⟩ rfl⟩
    · exact (p.channels.find?_erase id id).trans (if_pos rfl)
    · exact (p.channels.find?_erase id id').trans (if_neg hne)
    · rw [hlen]
      rfl

theorem setBitrate_answers (id : TrackId) (kilobits : Nat) :
    let out := p.setBitrate w.outlet id kilobits j
    Answers w ⟨p, j⟩ ⟨out.1.2, out.2⟩ (.setBitrate id kilobits) out.1.1 := by
  unfold setBitrate
  cases hc : p.channels.find? id with
  | none =>
    have hmissing : ¬∃ c, p.channels.find? id = some c := by simp [hc]
    exact ⟨hmissing, rfl, .inl rfl⟩
  | some c =>
    refine ⟨⟨c, hc⟩, .rated rfl hc ?_ (p.beside_setChannel id _) rfl rfl⟩
    exact (p.find?_setChannel id id _).trans (if_pos rfl)

theorem apply_answers (request : ControlEvent) (hsealed : p.Sealed) :
    let out := p.apply w.outlet request j
    Answers w ⟨p, j⟩ ⟨out.1.2, out.2⟩ request out.1.1 := by
  cases request with
  | configure folder baseName seconds => exact configure_answers folder baseName seconds
  | addSegmenter id kind => exact addTrack_answers id kind
  | removeSegmenter id => exact removeTrack_answers id hsealed
  | setBitrate id kilobits => exact setBitrate_answers id kilobits

/-- **A control event is answered** by null when it is a request that was carried out, and else by what went wrong. -/
theorem handle_answers (event : Data) (hsealed : p.Sealed) :
    let out := p.handle w.outlet event j
    (out.1.1 = .map [("error", .null)] ∧ ∃ request, ControlEvent.parse event = .ok request ∧
      Presentation.Admits w ⟨p, j⟩ request ∧ Presentation.CarriedOut w ⟨p, j⟩ ⟨out.1.2, out.2⟩ request) ∨
    ((∃ failure : Failure, out.1.1 = .map [("error", .text failure.message)]) ∧
      (∀ request, ControlEvent.parse event = .ok request → ¬Presentation.Admits w ⟨p, j⟩ request) ∧
      Presentation.Unchanged ⟨p, j⟩ ⟨out.1.2, out.2⟩) := by
  unfold handle
  cases hparse : ControlEvent.parse event with
  | error failure => exact .inr ⟨⟨failure, rfl⟩, nofun, rfl, .inl rfl⟩
  | ok request =>
    have hanswers := apply_answers (w := w) (j := j) request hsealed
    simp only [StateM.bind_apply, StateM.pure_apply]
    generalize p.apply w.outlet request j = out at hanswers ⊢
    obtain ⟨⟨result, q⟩, k⟩ := out
    cases result with
    | ok => exact .inl ⟨rfl, request, rfl, hanswers⟩
    | error failure =>
      refine .inr ⟨⟨failure, rfl⟩, ?_, hanswers.2⟩
      rintro _ ⟨⟩
      exact hanswers.1

end Publisher

namespace Presentation

theorem run_sane (w : World) (settings : Settings) (ops : List Operation) : ((start settings).run w ops).Sane := by
  let inv : Presentation → Prop := fun _ => True
  have h : ((start settings).run w ops).Sane ∧ inv ((start settings).run w ops) :=
    run_kept (fun _ _ _ _ _ => trivial) (fun _ _ _ _ => trivial) trivial ops
  exact h.1

/-- What a reply says went wrong, if anything. -/
def complaint? : Data → Option String
  | .map [("error", .text wording)] => some wording
  | _ => none

end Presentation
end Packager

import Packager.Proofs.Journal
import Packager.Publisher.Live
/-!
# Proofs.LiveRun — a publisher with its live manifest as a publisher in a world

A live publisher keeps its manifest beside it and writes it to the disk itself.  Its journal tells all of that: doing the
effects over again leads to the same manifest and the same disk (`Journal.redo`).  So there is a world that answers as the
disk does, and a live run is a run in that world (`live_run`): what is proved of runs in every world holds of it, and its
manifest is what was announced.
-/
namespace Packager

/-- The manifest after all that was announced. -/
def Journal.manifest (start : Mpd) : Journal → Mpd
  | [] => start
  | .announced news :: j => (manifest start j).apply news
  | _ :: j => manifest start j

section
variable {σ : Type} (disk : Disk (StateM σ)) (clock : StateM σ Instant)

/-- What an effect comes to for the manifest and for the disk. -/
def Effect.redo (s : Mpd × σ) : Effect → Mpd × σ
  | folder path _ => (s.1, (disk.createFolders path s.2).2)
  | wrote path content _ => (s.1, (disk.writeFile path content s.2).2)
  | renamed source target _ => (s.1, (disk.rename source target s.2).2)
  | read path _ => (s.1, (disk.readFile path s.2).2)
  | announced news => (s.1.apply news, s.2)
  | manifest _ => (s.1, ((Outlet.live disk clock).writeManifest s.1 s.2).2)

/-- The manifest and the disk after a journal. -/
def Journal.redo (start : Mpd × σ) : Journal → Mpd × σ
  | [] => start
  | e :: j => e.redo disk clock (redo start j)

theorem Journal.redo_fst (start : Mpd × σ) : ∀ j : Journal, (j.redo disk clock start).1 = j.manifest start.1
  | [] => rfl
  | e :: j => by
    have ih := redo_fst start j
    cases e with
    | announced news => exact congrArg (·.apply news) ih
    | _ => exact ih

/-- The world that answers as the disk does. -/
def World.behind (start : Mpd × σ) : World where
  createFolders j path := (disk.createFolders path (j.redo disk clock start).2).1
  writeFile j path content := (disk.writeFile path content (j.redo disk clock start).2).1
  rename j source target := (disk.rename source target (j.redo disk clock start).2).1
  readFile j path := (disk.readFile path (j.redo disk clock start).2).1
  writeManifest j :=
    ((Outlet.live disk clock).writeManifest (j.redo disk clock start).1 (j.redo disk clock start).2).1.1

end

/-! ## The same program in the world and live -/

section
variable {σ : Type} {disk : Disk (StateM σ)} {clock : StateM σ Instant} {start : Mpd × σ} {α β : Type}

/-- Whether a live program does to manifest and disk what a program in the world says in the journal, with the same
answer. -/
def Replays (disk : Disk (StateM σ)) (clock : StateM σ Instant) (start : Mpd × σ) (x : StateM Journal α)
    (y : StateT Mpd (StateM σ) α) : Prop :=
  ∀ j : Journal, y (j.redo disk clock start).1 (j.redo disk clock start).2 =
    (((x j).1, ((x j).2.redo disk clock start).1), ((x j).2.redo disk clock start).2)

namespace Replays

theorem pure (a : α) : Replays disk clock start (Pure.pure a) (Pure.pure a) := fun _ => rfl

theorem bind {x : StateM Journal α} {y : StateT Mpd (StateM σ) α} {f : α → StateM Journal β}
    {g : α → StateT Mpd (StateM σ) β} (h : Replays disk clock start x y)
    (hf : ∀ a, Replays disk clock start (f a) (g a)) : Replays disk clock start (x >>= f) (y >>= g) := by
  intro j
  show (fun r => g r.1.1 r.1.2 r.2) (y (j.redo disk clock start).1 (j.redo disk clock start).2) = _
  rw [h j]
  exact hf (x j).1 (x j).2

theorem map {x : StateM Journal α} {y : StateT Mpd (StateM σ) α} (f : α → β) (h : Replays disk clock start x y) :
    Replays disk clock start (f <$> x) (f <$> y) := by
  intro j
  show (fun r => ((f r.1.1, r.1.2), r.2)) (y (j.redo disk clock start).1 (j.redo disk clock start).2) = _
  rw [h j]
  rfl

theorem foldlM {f : β → α → StateM Journal β} {g : β → α → StateT Mpd (StateM σ) β}
    (h : ∀ b a, Replays disk clock start (f b a) (g b a)) :
    ∀ (l : List α) (b : β), Replays disk clock start (l.foldlM f b) (l.foldlM g b)
  | [], b => pure b
  | a :: l, b => by
    rw [List.foldlM_cons, List.foldlM_cons]
    exact (h b a).bind fun b => foldlM h l b

end Replays

/-- Whether an outlet answers as another does in the world. -/
structure Outlet.Replays (disk : Disk (StateM σ)) (clock : StateM σ Instant) (start : Mpd × σ)
    (a : Outlet (StateM Journal)) (b : Outlet (StateT Mpd (StateM σ))) : Prop where
  createFolders : ∀ path, Packager.Replays disk clock start (a.disk.createFolders path) (b.disk.createFolders path)
  writeFile : ∀ path content,
    Packager.Replays disk clock start (a.disk.writeFile path content) (b.disk.writeFile path content)
  announce : ∀ news, Packager.Replays disk clock start (a.announce news) (b.announce news)
  writeManifest : Packager.Replays disk clock start a.writeManifest b.writeManifest

theorem Outlet.replays_live (disk : Disk (StateM σ)) (clock : StateM σ Instant) (start : Mpd × σ) :
    Outlet.Replays disk clock start (World.behind disk clock start).outlet (.live disk clock) :=
  ⟨fun _ _ => rfl, fun _ _ _ => rfl, fun _ _ => rfl, fun _ => rfl⟩

/-! ## Operations -/

variable {a : Outlet (StateM Journal)} {b : Outlet (StateT Mpd (StateM σ))} (h : Outlet.Replays disk clock start a b)
include h

namespace Channel

theorem replays_feed (settings : Settings) (id : TrackId) (c : Channel) (frame : Frame) :
    Replays disk clock start (c.feed a settings id frame) (c.feed b settings id frame) := by
  unfold feed
  cases c.segmenter.manage frame with
  | error failure => exact .pure _
  | ok r =>
    dsimp only
    cases r.2.configure with
    | error lack => exact .pure _
    | ok g =>
      dsimp only
      cases (g.describe (.empty settings.segment.maxBytes)).result with
      | error failure => exact .pure _
      | ok made =>
        cases made with
        | false => exact .pure _
        | true =>
          refine (h.writeFile _ _).bind fun written => ?_
          cases written with
          | error e => exact .pure _
          | ok => exact (h.announce _).bind fun _ => .pure _

theorem replays_publish (settings : Settings) (id : TrackId) (c : Channel) :
    Replays disk clock start (c.publish a settings id) (c.publish b settings id) := by
  refine (h.writeFile _ _).bind fun written => ?_
  cases written with
  | error e => exact .pure _
  | ok => exact (h.announce _).bind fun _ => .pure _

theorem replays_drain (settings : Settings) (id : TrackId) (c : Channel) :
    Replays disk clock start (c.drain a settings id) (c.drain b settings id) := by
  have hone : ∀ d : Channel, Replays disk clock start (drain.publishOne a settings id d)
      (drain.publishOne b settings id d) := fun d => (replays_publish h settings id d).bind fun _ => .pure _
  have hlast : ∀ held : Nat × Channel, Replays disk clock start
      (if held.2.finish.1 then drain.publishOne a settings id held.2.finish.2 >>= fun last => pure (held.1 + last.1, last.2)
        else pure (0, held.2.finish.2) >>= fun last => pure (held.1 + last.1, last.2))
      (if held.2.finish.1 then drain.publishOne b settings id held.2.finish.2 >>= fun last => pure (held.1 + last.1, last.2)
        else pure (0, held.2.finish.2) >>= fun last => pure (held.1 + last.1, last.2)) := by
    intro held
    cases held.2.finish.1 with
    | false => exact .pure _
    | true => exact (hone _).bind fun _ => .pure _
  unfold drain
  cases c.isHolding with
  | false => exact hlast (0, c)
  | true => exact (hone c).bind fun held => hlast held

end Channel

namespace Publisher

theorem replays_addTrack (id : TrackId) (kind : Kind) (p : Publisher) :
    Replays disk clock start (p.addTrack a id kind) (p.addTrack b id kind) := by
  unfold addTrack
  split
  · exact .pure _
  · exact (h.announce _).bind fun _ => .pure _

theorem replays_removeTrack (id : TrackId) (p : Publisher) :
    Replays disk clock start (p.removeTrack a id) (p.removeTrack b id) := by
  unfold removeTrack
  split
  · exact .pure _
  · exact (Channel.replays_drain h _ _ _).bind fun _ => (h.announce _).bind fun _ => h.writeManifest.bind fun _ => .pure _

theorem replays_drainAudio (p : Publisher) : Replays disk clock start (p.drainAudio a) (p.drainAudio b) := by
  have hone : ∀ (acc : Nat × Publisher) (entry : TrackId × Channel),
      Replays disk clock start (drainAudio.drainOne a acc entry) (drainAudio.drainOne b acc entry) :=
    fun acc entry => (Channel.replays_drain h _ _ _).bind fun _ => .pure _
  refine (Replays.foldlM hone _ _).bind fun out => ?_
  dsimp only
  split
  · exact .pure _
  · refine h.writeManifest.bind fun written => ?_
    cases written with
    | error failure => exact .pure _
    | ok => exact .pure _

theorem replays_setBitrate (id : TrackId) (kilobits : Nat) (p : Publisher) :
    Replays disk clock start (p.setBitrate a id kilobits) (p.setBitrate b id kilobits) := by
  unfold setBitrate
  split
  · exact .pure _
  · exact (h.announce _).bind fun _ => .pure _

theorem replays_configure (folder : Path) (baseName : String) (seconds : Nat) (p : Publisher) :
    Replays disk clock start (p.configure a folder baseName seconds) (p.configure b folder baseName seconds) := by
  unfold configure
  split
  · exact .pure _
  · refine (h.createFolders folder).bind fun created => ?_
    cases created with
    | error e => exact .pure _
    | ok => exact (h.announce _).bind fun _ => .pure _

theorem replays_shutdown (p : Publisher) : Replays disk clock start (p.shutdown a) (p.shutdown b) := by
  have hone : ∀ (q : Publisher) (id : TrackId),
      Replays disk clock start (Prod.snd <$> q.removeTrack a id) (Prod.snd <$> q.removeTrack b id) :=
    fun q id => (replays_removeTrack h id q).map Prod.snd
  exact (Replays.foldlM hone _ _).bind fun _ => h.writeManifest.bind fun _ => .pure _

theorem replays_feed (acc : CycleReport × Publisher) (entry : TrackId × Frame) :
    Replays disk clock start (feed a acc entry) (feed b acc entry) := by
  unfold feed
  dsimp only
  split
  · exact .pure _
  · exact (Channel.replays_feed h _ _ _ _).bind fun _ => .pure _

theorem replays_release (acc : CycleReport × Publisher) (entry : TrackId × Channel) :
    Replays disk clock start (release a acc entry) (release b acc entry) := by
  unfold release
  dsimp only
  cases acc.2.window? entry.1 entry.2 with
  | none => exact .pure _
  | some window =>
    dsimp only
    cases (acc.2.gate.judge window).1 with
    | hold => exact .pure _
    | discard => exact .pure _
    | publish => exact (Channel.replays_publish h _ _ _).bind fun _ => .pure _

theorem replays_cycle (frames : List (TrackId × Frame)) (p : Publisher) :
    Replays disk clock start (p.cycle a frames) (p.cycle b frames) := by
  refine (Replays.foldlM (replays_feed h) _ _).bind fun fed => ?_
  refine (Replays.foldlM (replays_release h) _ _).bind fun out => ?_
  dsimp only
  split
  · exact .pure _
  · refine h.writeManifest.bind fun written => ?_
    cases written with
    | error failure => exact .pure _
    | ok => exact .pure _

end Publisher

theorem Operation.replays_run (p : Publisher) (op : Operation) :
    Replays disk clock start (op.run a p) (op.run b p) := by
  cases op with
  | addTrack id kind => exact (Publisher.replays_addTrack h id kind p).map Prod.snd
  | removeTrack id => exact (Publisher.replays_removeTrack h id p).map Prod.snd
  | cycle frames => exact (Publisher.replays_cycle h frames p).map Prod.snd
  | setBitrate id kilobits => exact (Publisher.replays_setBitrate h id kilobits p).map Prod.snd
  | drainAudio => exact (Publisher.replays_drainAudio h p).map Prod.snd
  | configure folder baseName seconds => exact (Publisher.replays_configure h folder baseName seconds p).map Prod.snd
  | shutdown => exact (Publisher.replays_shutdown h p).map Prod.snd

end

/-! ## Runs -/

section
variable {σ : Type} (disk : Disk (StateM σ)) (clock : StateM σ Instant)

/-- A live publisher starts without tracks and with an empty manifest, under settings that pass the check. -/
theorem Publisher.createLive_ok {settings : Settings} {p : Publisher} {m : Mpd} {s t : σ}
    (h : createLive disk clock settings s = (.ok (p, m), t)) :
    settings.check = .ok () ∧ p = (Presentation.start settings).publisher ∧ m = .start settings (clock s).1 := by
  unfold createLive create at h
  simp only [StateM.bind_apply] at h
  cases hcheck : settings.check with
  | error fault =>
    rw [hcheck] at h
    cases h
  | ok =>
    rw [hcheck] at h
    simp only [StateM.bind_apply] at h
    generalize (disk.createFolders settings.folder (clock s).2).1 = created at h
    cases created with
    | error e => cases h
    | ok =>
      cases h
      exact ⟨rfl, rfl, rfl⟩

/-- A run of a live publisher. -/
def Publisher.runLive (ops : List Operation) (p : Publisher) : StateT Mpd (StateM σ) Publisher :=
  ops.foldlM (fun p op => op.run (.live disk clock) p) p

theorem Presentation.run_eq_foldlM (w : World) : ∀ (ops : List Operation) (s : Presentation),
    ops.foldlM (fun p op => op.run w.outlet p) s.publisher s.journal =
      ((s.run w ops).publisher, (s.run w ops).journal)
  | [], _ => rfl
  | op :: ops, s => by
    rw [List.foldlM_cons]
    exact run_eq_foldlM w ops (s.apply w op)

/-- **A live run is a run in the world behind it**: the publisher is the same, and the manifest is what was announced. -/
theorem Publisher.live_run (settings : Settings) (ops : List Operation) (m : Mpd) (s : σ) :
    let world := (Presentation.start settings).run (.behind disk clock (m, s)) ops
    let live := (Presentation.start settings).publisher.runLive disk clock ops m s
    live.1.1 = world.publisher ∧ live.1.2 = world.journal.manifest m := by
  intro world live
  have hreplays : Replays disk clock (m, s)
      (ops.foldlM (fun p op => op.run (World.behind disk clock (m, s)).outlet p) (Presentation.start settings).publisher)
      ((Presentation.start settings).publisher.runLive disk clock ops) :=
    Replays.foldlM (Operation.replays_run (Outlet.replays_live disk clock (m, s))) ops _
  have hlive : live = _ := hreplays []
  have hworld := Presentation.run_eq_foldlM (.behind disk clock (m, s)) ops (.start settings)
  rw [hlive]
  refine ⟨congrArg Prod.fst hworld, ?_⟩
  exact (Journal.redo_fst disk clock (m, s) _).trans (congrArg (Journal.manifest m) (congrArg Prod.snd hworld))

end
end Packager

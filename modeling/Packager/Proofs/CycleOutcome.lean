import Mathlib.Logic.ExistsUnique
import Packager.Proofs.FixedParts
import Packager.Proofs.Listing
import Packager.Proofs.VideoStart
/-!
# Proofs.CycleOutcome — what becomes of the segments that are finished in a cycle

Once every frame of a cycle is taken, each segment in a slot gets a fate (`Fate`): its file is published, or could not be
written, or the segment is held or thrown away.  The gate decides one segment after the other and changes on the way, but
video is asked first and audio changes nothing, so every fate is what the gate says at the end (`cycle_outcome`).
-/
namespace Packager

/-! ## What a segmenter fails with -/

/-- Whether an outcome is no failure of the disk. -/
def Outcome.OffDisk {σ : Type} (out : Outcome σ) : Prop := ∀ e, out.result ≠ .error (.io e)

theorem Assembly.offDisk_close (a : Assembly) (slot : Slot) : (a.close slot).OffDisk := by
  intro e h
  rcases a.close_cases slot with ⟨-, hc⟩ | ⟨-, ⟨length, capacity, hc⟩, -, -⟩ | ⟨-, hc, -⟩ <;> rw [hc] at h <;> cases h

theorem AudioStream.offDisk_append (a : Assembly) (v : AudioStream) (slot : Slot) : (append a v slot).OffDisk := by
  have hcut : ∀ (b : Assembly) (next : Nat), (resynchronize b v next slot).OffDisk := fun b next e h => by
    rcases resynchronize_cases b v next slot with ⟨-, he⟩ | ⟨-, -, ⟨-, he⟩ | ⟨-, g, -, he⟩ | ⟨-, -, he⟩⟩ <;> rw [he] at h
    · cases h
    · exact b.offDisk_close slot e h
    · cases h
    · cases h
  intro e h
  unfold append at h
  cases hp : a.pending with
  | none => simp [hp] at h
  | some p =>
    have hcut := hcut { a with pending := none } p.start e
    simp only [hp] at h
    split at h
    · split at h
      · exact Assembly.offDisk_close _ _ e h
      · cases h
    · exact hcut h

theorem VideoStream.offDisk_appendAll : ∀ (queue : List Pending) (acc : Outcome (Assembly × VideoStream)),
    acc.OffDisk → (appendAll queue acc).OffDisk
  | [], _, h => h
  | p :: queue, acc, h => by
    have hstep : (appendFrame acc.state.1 acc.state.2 p acc.slot).OffDisk := by
      intro e he
      unfold appendFrame at he
      split at he
      · cases he
      · simp only at he
        split at he
        · exact Assembly.offDisk_close _ _ e he
        · cases he
    refine offDisk_appendAll queue _ fun e he => ?_
    simp only [joinResults] at he
    split at he
    · rename_i hr
      exact hstep e (hr.trans he)
    · rename_i hr _
      exact h e (hr.trans he)
    · cases he

namespace Segmenter

theorem offDisk_append (s : Segmenter) (slot : Slot) : (s.append slot).OffDisk := by
  obtain ⟨a, stream⟩ := s
  cases hc : a.configured with
  | false =>
    intro e h
    rw [append_of_unconfigured hc] at h
    cases h
  | true =>
    cases stream with
    | audio v =>
      rw [append_audio v slot hc]
      exact AudioStream.offDisk_append a v slot
    | video v =>
      rw [append_video v slot hc]
      exact VideoStream.offDisk_appendAll _ _ fun e h => by cases h

theorem offDisk_describe (s : Segmenter) (slot : Slot) : (s.describe slot).OffDisk := by
  intro e h
  unfold describe at h
  split at h
  · cases h
  · split at h
    · cases h
    · split at h
      · cases h
      · unfold Assembly.describe at h
        rename_i track _
        rcases slot.load_cases track.encode 0 0 0 with hl | ⟨t, hl, -⟩ <;> simp [hl] at h

theorem manage_ne_io (s : Segmenter) (frame : Frame) (e : IoError) : s.manage frame ≠ .error (.io e) := by
  intro h
  obtain ⟨a, stream⟩ := s
  cases stream with
  | audio v =>
    cases frame with
    | video f => cases h
    | audio f =>
      rw [manage_audio] at h
      unfold AudioStream.manage at h
      split at h
      · cases h
      · split at h <;> cases h
  | video v =>
    cases frame with
    | audio f => cases h
    | video f =>
      rw [manage_video] at h
      unfold VideoStream.manage at h
      simp only at h
      split at h
      · cases h
      · split at h <;> cases h

end Segmenter

namespace Channel

variable (w : World) (settings : Settings) (id : TrackId)

theorem append_ne_io (c : Channel) (e : IoError) : c.append.2 ≠ some (.io e) := by
  intro h
  unfold append at h
  simp only at h
  split at h
  · cases h
  · rename_i failure hr
    cases h
    exact c.segmenter.offDisk_append c.slot e hr

/-- **The disk fails a frame only with the initialization segment**, and that leaves nothing in the slot. -/
theorem feed_io {c : Channel} {j : Journal} (h : c.Matches settings id j) (frame : Frame) (e : IoError)
    (hf : (c.feed w.outlet settings id frame j).1.failure = some (.io e)) :
    (c.feed w.outlet settings id frame j).1.channel.isHolding = false := by
  have hcourse := feed_course w settings id c frame j
  generalize c.feed w.outlet settings id frame j = out at hcourse hf ⊢
  cases hcourse with
  | refused hm =>
    cases hf
    exact absurd hm (c.segmenter.manage_ne_io frame e)
  | waiting => cases hf
  | @rejected _ _ g' _ _ _ hm hc hh =>
    cases hf
    exact absurd (congrArg Outcome.result hh) (g'.offDisk_describe (.empty settings.segment.maxBytes) e)
  | @appended _ _ _ state _ => exact absurd hf (append_ne_io ⟨state, c.slot⟩ e)
  | failed hm hc hh =>
    -- the track was not described until now, so it holds nothing
    obtain ⟨hempty, -⟩ := h.empty (described_keeps hm hc hh).2.2.1
    simp [isHolding, hempty]
  | @made _ _ _ state _ => exact absurd hf (append_ne_io ⟨state, c.slot⟩ e)

end Channel

/-! ## Verdicts -/

namespace Gate

theorem judge_of_video {g : Gate} {window : Window} (h : window.kind = .video) : (g.judge window).1 = .publish := by
  unfold judge
  rw [h]

theorem judge_eq_hold (g : Gate) {window : Window} (h : window.kind = .audio) :
    (g.judge window).1 = .hold ↔ g.audioOnly = false ∧ g.video ≠ [] ∧ g.videoStarted = false := by
  unfold judge
  rw [h]
  dsimp only
  cases g.audioOnly <;> cases g.videoStarted <;> by_cases hv : g.video = [] <;> simp [hv]
  cases g.origin with
  | none => simp
  | some origin => by_cases hlt : window.start < origin <;> simp [hlt]

theorem judge_eq_discard (g : Gate) {window : Window} (h : window.kind = .audio) :
    (g.judge window).1 = .discard ↔
      g.audioOnly = false ∧ g.video ≠ [] ∧ g.videoStarted = true ∧ ∃ origin, g.origin = some origin ∧ window.start < origin := by
  unfold judge
  rw [h]
  dsimp only
  cases g.audioOnly <;> cases g.videoStarted <;> by_cases hv : g.video = [] <;> simp [hv]
  cases g.origin with
  | none => simp
  | some origin => by_cases hlt : window.start < origin <;> simp [hlt]

end Gate

/-! ## Fates -/

/-- What becomes of a finished segment. -/
inductive Fate where
  | published
  | failed (e : IoError)
  | held
  | discarded

def Fate.verdict : Fate → Verdict
  | published | failed _ => .publish
  | held => .hold
  | discarded => .discard

namespace CycleReport

variable {r : CycleReport} {settings : Settings} {id id' : TrackId} {c c' : Channel} {fate fate' : Fate}

/-- Whether a report says that the segment of a track met with a fate. -/
def Lists (r : CycleReport) (settings : Settings) (id : TrackId) (c : Channel) : Fate → Prop
  | .published => c.segmentPath settings id ∈ r.published
  | .failed e => (id, .io e) ∈ r.failures
  | .held => id ∈ r.held
  | .discarded => id ∈ r.discarded

/-- A report with one more fate. -/
def note (r : CycleReport) (settings : Settings) (id : TrackId) (c : Channel) : Fate → CycleReport
  | .published => { r with published := r.published ++ [c.segmentPath settings id] }
  | .failed e => r.fail id (.io e)
  | .held => { r with held := r.held ++ [id] }
  | .discarded => { r with discarded := r.discarded ++ [id] }

theorem lists_note_self (hnone : ∀ fate, ¬r.Lists settings id c fate) :
    (r.note settings id c fate).Lists settings id c fate' ↔ fate' = fate := by
  have hnone := hnone fate'
  cases fate <;> cases fate' <;> simp_all [Lists, note, fail]

/-- The fate of one track says nothing of another. -/
theorem lists_note_ne (hne : id ≠ id') :
    (r.note settings id c fate).Lists settings id' c' fate' ↔ r.Lists settings id' c' fate' := by
  have hpath : c'.segmentPath settings id' ≠ c.segmentPath settings id := fun h =>
    hne (Naming.segmentPath_inj h).1.symm
  cases fate <;> cases fate' <;> simp [Lists, note, fail, hpath, Ne.symm hne]

theorem mem_held_note : id' ∈ (r.note settings id c fate).held ↔ id' ∈ r.held ∨ (fate = .held ∧ id' = id) := by
  cases fate <;> simp [note, fail]

end CycleReport

namespace Publisher

open Presentation (Moves)

variable {w : World} {p q : Publisher} {j k : Journal}

/-- What releasing the segment of a track does: the gate takes note, the other tracks stay, and only a held segment keeps
the slot. -/
structure Releases (p : Publisher) (window : Window) (id : TrackId) (c : Channel) (fate : Fate) (q : Publisher) : Prop where
  settings : q.settings = p.settings
  origin : q.origin = p.origin
  gate : q.gate = (p.gate.judge window).2
  others : ∀ id', id ≠ id' → q.channels.find? id' = p.channels.find? id'
  slot : ∃ d, q.channels.find? id = some d ∧ (d.isHolding = true ↔ fate = .held)

/-- **Releasing one segment**: the fate is what the gate says, and the report notes it. -/
theorem release_note {id : TrackId} {c : Channel} {window : Window} (hc : p.channels.find? id = some c)
    (hh : c.isHolding = true) (hw : p.window? id c = some window) (report : CycleReport) (k : Journal) :
    let out := release w.outlet (report, p) (id, c) k
    ∃ fate : Fate, fate.verdict = (p.gate.judge window).1 ∧ out.1.1 = report.note p.settings id c fate ∧
      p.Releases window id c fate out.1.2 := by
  have hfree : ∀ (gate : Gate) (fate : Fate), gate = (p.gate.judge window).2 → fate ≠ .held →
      p.Releases window id c fate ({ p with gate }.setChannel id { c with slot := c.slot.clear }) := by
    intro gate fate hgate hfate
    refine ⟨rfl, rfl, hgate, fun id' hne => ?_, { c with slot := c.slot.clear }, ?_, iff_of_false ?_ hfate⟩
    · rw [find?_setChannel, if_neg hne]
    · rw [find?_setChannel, if_pos rfl]
    · exact Bool.false_ne_true
  unfold release
  simp only [hw]
  generalize hj : p.gate.judge window = judged at hfree ⊢
  obtain ⟨verdict, gate⟩ := judged
  cases verdict with
  | hold => exact ⟨.held, rfl, rfl, rfl, rfl, by rw [hj]; rfl, fun _ _ => rfl, c, hc, iff_of_true hh rfl⟩
  | discard => exact ⟨.discarded, rfl, rfl, hfree gate .discarded rfl nofun⟩
  | publish =>
    simp only [StateM.bind_apply]
    have hfreed := (Channel.publish_closes w p.settings id c k).2
    have hresult : (c.publish w.outlet p.settings id k).1.1 = .ok (c.segmentPath p.settings id) ∨
        ∃ e, (c.publish w.outlet p.settings id k).1.1 = .error (.io e) := by
      unfold Channel.publish Slot.writeTo
      simp only [StateM.bind_apply, World.writeFile_apply]
      generalize w.writeFile k (c.segmentPath p.settings id) c.slot.data = written
      rcases written with e | ⟨⟩
      · exact .inr ⟨e, rfl⟩
      · exact .inl rfl
    simp only [StateM.pure_apply, hfreed]
    rcases hresult with hr | ⟨e, hr⟩ <;> rw [hr]
    · exact ⟨.published, rfl, rfl, hfree gate .published rfl Fate.noConfusion⟩
    · exact ⟨.failed e, rfl, rfl, hfree gate (.failed e) rfl Fate.noConfusion⟩

/-! ## A cycle -/

/-- The first half of a cycle: every frame is taken. -/
def intake {m : Type → Type} [Monad m] (outlet : Outlet m) (frames : List (TrackId × Frame)) (p : Publisher) :
    m (CycleReport × Publisher) := frames.foldlM (feed outlet) (.empty, p.fixOrigin frames)

/-- The second half releases what is ready; then the manifest may be written, which only the report notes. -/
theorem cycle_eq (frames : List (TrackId × Frame)) :
    let fed := p.intake w.outlet frames j
    let out := fed.1.2.ready.foldlM (release w.outlet) fed.1 fed.2
    (p.cycle w.outlet frames j).1.2 = out.1.2 ∧
      ∃ failure, (p.cycle w.outlet frames j).1.1 = { out.1.1 with manifestFailure := failure } := by
  unfold cycle intake
  simp only [StateM.bind_apply]
  generalize frames.foldlM (feed w.outlet) (.empty, p.fixOrigin frames) j = fed
  generalize fed.1.2.ready.foldlM (release w.outlet) fed.1 fed.2 = out
  cases out.1.1.published.isEmpty with
  | true => exact ⟨rfl, out.1.1.manifestFailure, rfl⟩
  | false =>
    simp only [Bool.false_eq_true, if_false, StateM.bind_apply, World.writeManifest_apply]
    cases w.writeManifest out.2 with
    | ok => exact ⟨rfl, out.1.1.manifestFailure, rfl⟩
    | error failure => exact ⟨rfl, some failure, rfl⟩

/-- **While frames are taken** nothing is released, and the disk fails tracks that hold nothing. -/
theorem intake_report (frames : List (TrackId × Frame)) (hnodup : (frames.map Prod.fst).Nodup) (h : p.Sound j) :
    let fed := p.intake w.outlet frames j
    fed.1.1.published = [] ∧ fed.1.1.held = [] ∧ fed.1.1.discarded = [] ∧
      ∀ id e c, (id, .io e) ∈ fed.1.1.failures → fed.1.2.channels.find? id = some c → c.isHolding = false := by
  -- a track that the disk failed has had its frame, so it stays as it is for the rest of the phase
  let inv : List (TrackId × Frame) → CycleReport × Publisher → Journal → Prop := fun rest acc k =>
    (acc.2.Sound k ∧ (rest.map Prod.fst).Nodup) ∧ (acc.1.published = [] ∧ acc.1.held = [] ∧ acc.1.discarded = []) ∧
    ∀ id e, (id, .io e) ∈ acc.1.failures → id ∉ rest.map Prod.fst ∧
      ∀ c, acc.2.channels.find? id = some c → c.isHolding = false
  have hstart : inv frames (.empty, p.fixOrigin frames) j :=
    ⟨⟨(fixOrigin_sound frames h).1, hnodup⟩, ⟨rfl, rfl, rfl⟩, fun _ _ hm => absurd hm List.not_mem_nil⟩
  have hend := StateM.foldlM_invariant (f := feed w.outlet) inv (by
    rintro ⟨id, frame⟩ rest ⟨report, q⟩ k ⟨⟨hsound, hnodup⟩, hnone, hfailed⟩
    obtain ⟨hnot, hrest⟩ := List.nodup_cons.1 hnodup
    refine ⟨⟨(feed_sound (report, q) (id, frame) hsound).1, hrest⟩, ?_⟩
    have hbefore : ∀ id' e, (id', Failure.io e) ∈ report.failures → id ≠ id' ∧ id' ∉ rest.map Prod.fst ∧
        ∀ c, q.channels.find? id' = some c → c.isHolding = false := by
      intro id' e hm
      obtain ⟨hnotin, hfree⟩ := hfailed id' e hm
      rw [List.map_cons, List.mem_cons, not_or] at hnotin
      exact ⟨Ne.symm hnotin.1, hnotin.2, hfree⟩
    unfold feed
    dsimp only
    cases hc : q.channels.find? id with
    | none =>
      refine ⟨hnone, fun id' e hm => ?_⟩
      rcases List.mem_append.1 hm with hm | hm
      · exact (hbefore id' e hm).2
      · cases List.mem_singleton.1 hm
    | some c =>
      simp only [StateM.bind_apply, StateM.pure_apply]
      have hio := Channel.feed_io w q.settings id (hsound.tracks id c hc) frame
      generalize (c.feed w.outlet q.settings id frame k).1 = fed at hio ⊢
      have hold : ∀ id' e, (id', Failure.io e) ∈ report.failures → id' ∉ rest.map Prod.fst ∧
          ∀ d, (q.setChannel id fed.channel).channels.find? id' = some d → d.isHolding = false := by
        intro id' e hm
        obtain ⟨hne, hnotin, hfree⟩ := hbefore id' e hm
        refine ⟨hnotin, fun d hd => hfree d ?_⟩
        rwa [find?_setChannel, if_neg hne] at hd
      cases hf : fed.failure with
      | none => exact ⟨hnone, hold⟩
      | some failure =>
        refine ⟨hnone, fun id' e hm => ?_⟩
        rcases List.mem_append.1 hm with hm | hm
        · exact hold id' e hm
        · cases List.mem_singleton.1 hm
          refine ⟨hnot, fun d hd => ?_⟩
          rw [find?_setChannel, if_pos rfl] at hd
          cases hd
          exact hio e hf) frames _ j hstart
  obtain ⟨-, ⟨hpublished, hheld, hdiscarded⟩, hfailures⟩ := hend
  exact ⟨hpublished, hheld, hdiscarded, fun id e c hm hf => (hfailures id e hm).2 c hf⟩

/-- What is settled while the segments of `p` are released: those done have one fate, which is what the gate says by now,
those to come have none. -/
structure Accounted (p : Publisher) (done rest : List (TrackId × Channel)) (r : CycleReport) (q : Publisher) : Prop where
  split : p.ready = done ++ rest
  settings : q.settings = p.settings
  origin : q.origin = p.origin
  settled : ∀ e ∈ done, ∃ fate window, p.window? e.1 e.2 = some window ∧ fate.verdict = (q.gate.judge window).1 ∧
    (∀ fate', r.Lists p.settings e.1 e.2 fate' ↔ fate' = fate) ∧
    ∃ d, q.channels.find? e.1 = some d ∧ (d.isHolding = true ↔ fate = .held)
  waiting : ∀ e ∈ rest, q.channels.find? e.1 = some e.2 ∧ ∀ fate, ¬r.Lists p.settings e.1 e.2 fate
  others : ∀ id, id ∉ p.ready.map Prod.fst → id ∉ r.held ∧ ∀ d, q.channels.find? id = some d → d.isHolding = false

/-- Video is released before audio. -/
theorem video_first {done rest : List (TrackId × Channel)} {e : TrackId × Channel} (h : p.ready = done ++ e :: rest)
    (hv : e.2.kind = .video) : ∀ e' ∈ done, e'.2.kind = .video := by
  intro e' hm
  unfold ready at h
  rcases List.append_eq_append_iff.1 h with ⟨more, -, haudio⟩ | ⟨more, hvideo, -⟩
  · -- the video is all done, so what comes next is audio
    have hmem := (List.mem_filter.1 (haudio ▸ List.mem_append_right more List.mem_cons_self)).2
    simp [hv] at hmem
  · have hmem := (List.mem_filter.1 (hvideo ▸ List.mem_append_left more hm)).2
    simpa using hmem

/-- **Releasing the next segment** settles it and leaves those before as they are. -/
theorem Accounted.step {done rest : List (TrackId × Channel)} {e : TrackId × Channel} {r : CycleReport}
    (h : p.Accounted done (e :: rest) r q) (hnodup : (p.ready.map Prod.fst).Nodup) (hh : e.2.isHolding = true)
    {window : Window} (hw : p.window? e.1 e.2 = some window) (k : Journal) :
    let out := release w.outlet (r, q) e k
    p.Accounted (done ++ [e]) rest out.1.1 out.1.2 := by
  obtain ⟨id, c⟩ := e
  obtain ⟨hc, hnone⟩ := h.waiting (id, c) List.mem_cons_self
  have hwq : q.window? id c = some window := by
    unfold window? at hw ⊢
    rw [h.origin]
    exact hw
  obtain ⟨fate, hverdict, hnote, hreleases⟩ := release_note (w := w) hc hh hwq r k
  rw [h.settings] at hnote
  intro out
  have hnote : out.1.1 = r.note p.settings id c fate := hnote
  have hreleases : q.Releases window id c fate out.1.2 := hreleases
  generalize out.1.1 = r', out.1.2 = q' at hnote hreleases ⊢
  subst hnote
  rw [h.split, List.map_append, List.map_cons] at hnodup
  obtain ⟨-, hlater, hdistinct⟩ := List.nodup_append.1 hnodup
  have hdone : ∀ e' ∈ done, id ≠ e'.1 := fun e' hm he =>
    hdistinct _ (List.mem_map_of_mem hm) _ List.mem_cons_self he.symm
  have hrest : ∀ e' ∈ rest, id ≠ e'.1 := by
    intro e' hm he
    have hmem : e'.1 ∈ rest.map Prod.fst := List.mem_map_of_mem hm
    rw [← he] at hmem
    exact (List.nodup_cons.1 hlater).1 hmem
  obtain ⟨-, hkind⟩ := window?_eq_some hw
  -- what is settled is video as long as video is released, and audio leaves the gate alone
  have hsame : ∀ e' ∈ done, ∀ window', p.window? e'.1 e'.2 = some window' →
      (q'.gate.judge window').1 = (q.gate.judge window').1 := by
    intro e' hm window' hw'
    obtain ⟨-, hkind'⟩ := window?_eq_some hw'
    rw [hreleases.gate, Gate.judge_snd]
    by_cases hv : window.kind = .video
    · have hv' : window'.kind = .video := hkind'.trans (video_first h.split (hkind.symm.trans hv) e' hm)
      rw [Gate.judge_of_video hv', Gate.judge_of_video hv']
    · rw [if_neg hv]
  have hself : (q'.gate.judge window).1 = (q.gate.judge window).1 := by
    rw [hreleases.gate, Gate.judge_snd]
    by_cases hv : window.kind = .video
    · rw [Gate.judge_of_video hv, Gate.judge_of_video hv]
    · rw [if_neg hv]
  refine ⟨by rw [h.split]; simp, hreleases.settings.trans h.settings, hreleases.origin.trans h.origin, ?_, ?_, ?_⟩
  · intro e' hm
    rcases List.mem_append.1 hm with hm | hm
    · obtain ⟨fate', window', hw', hverdict', hlists, d, hd, hheld⟩ := h.settled e' hm
      refine ⟨fate', window', hw', hverdict'.trans (hsame e' hm window' hw').symm, fun f => ?_, d, ?_, hheld⟩
      · rw [CycleReport.lists_note_ne (hdone e' hm)]
        exact hlists f
      · rw [hreleases.others _ (hdone e' hm)]
        exact hd
    · rw [List.mem_singleton.1 hm]
      exact ⟨fate, window, hw, hverdict.trans hself.symm, fun f => CycleReport.lists_note_self hnone, hreleases.slot⟩
  · intro e' hm
    obtain ⟨hc', hnone'⟩ := h.waiting e' (List.mem_cons_of_mem _ hm)
    refine ⟨?_, fun f => ?_⟩
    · rw [hreleases.others _ (hrest e' hm)]
      exact hc'
    · rw [CycleReport.lists_note_ne (hrest e' hm)]
      exact hnone' f
  · intro id' hnot
    obtain ⟨hheld, hfree⟩ := h.others id' hnot
    have hne : id ≠ id' := by
      rintro rfl
      exact hnot (by rw [h.split]; simp)
    refine ⟨fun hm => ?_, fun d hd => hfree d ?_⟩
    · rcases CycleReport.mem_held_note.1 hm with hm | ⟨-, rfl⟩
      · exact hheld hm
      · exact hne rfl
    · rwa [hreleases.others _ hne] at hd

/-- **Releasing everything that is ready** settles all of it. -/
theorem releaseAll_accounted {r : CycleReport} (h : p.Accounted [] p.ready r p) (hsorted : p.channels.Sorted)
    (hwindow : ∀ e ∈ p.ready, ∃ window, p.window? e.1 e.2 = some window) (k : Journal) :
    let out := p.ready.foldlM (release w.outlet) (r, p) k
    p.Accounted p.ready [] out.1.1 out.1.2 := by
  obtain ⟨⟨-, hnodup⟩, hholding⟩ := current_ready hsorted
  let inv : List (TrackId × Channel) → CycleReport × Publisher → Journal → Prop := fun rest acc _ =>
    ∃ done, p.Accounted done rest acc.1 acc.2
  obtain ⟨done, hend⟩ := StateM.foldlM_invariant (f := release w.outlet) inv (by
    rintro e rest acc k ⟨done, hacc⟩
    have hmem : e ∈ p.ready := by
      rw [hacc.split]
      exact List.mem_append_right done List.mem_cons_self
    obtain ⟨window, hw⟩ := hwindow e hmem
    exact ⟨done ++ [e], hacc.step hnodup (hholding e hmem) hw k⟩) p.ready (r, p) k ⟨[], h⟩
  have hdone : p.ready = done := hend.split.trans (List.append_nil done)
  intro out
  have hend : p.Accounted done [] out.1.1 out.1.2 := hend
  rw [← hdone] at hend
  exact hend

theorem mem_ready (h : p.channels.Sorted) {id : TrackId} {c : Channel} :
    (id, c) ∈ p.ready ↔ p.channels.find? id = some c ∧ c.isHolding = true := by
  unfold ready
  rw [← SortedMap.mem_entries h]
  cases hk : c.kind <;> simp [hk]

/-- **A segment in a slot has a window**: its track is described, so it has an offset. -/
theorem window?_of_holding (h : p.Sound j) (hg : Presentation.Grounded ⟨p, j⟩) {id : TrackId} {c : Channel}
    (hc : p.channels.find? id = some c) (hh : c.isHolding = true) : ∃ window, p.window? id c = some window := by
  have hoffset : c.segmenter.assembly.clock.offset ≠ none := by
    intro hn
    have hd : c.described = false := (hg id c hc hn).2.1
    have he := ((h.tracks id c hc).empty hd).1
    simp [Channel.isHolding, he] at hh
  obtain ⟨offset, ho⟩ := Option.ne_none_iff_exists'.1 hoffset
  unfold window? Clock.zero?
  rw [ho]
  cases c.segmenter.assembly.clock.origin with
  | none => exact ⟨_, rfl⟩
  | some origin => exact ⟨_, rfl⟩

theorem intake_sound (frames : List (TrackId × Frame)) (h : p.Sound j) (hg : Presentation.Grounded ⟨p, j⟩) :
    let fed := p.intake w.outlet frames j
    fed.1.2.Sound fed.2 ∧ Presentation.Grounded ⟨fed.1.2, fed.2⟩ := by
  intro fed
  have horigin : Moves w ⟨p, j⟩ ⟨p.fixOrigin frames, j⟩ := fixOrigin_moves frames
  have hfed : Moves w ⟨p.fixOrigin frames, j⟩ ⟨fed.1.2, fed.2⟩ := (feedAll_moves frames).1
  have hmoves : Moves w ⟨p, j⟩ ⟨fed.1.2, fed.2⟩ := Relation.ReflTransGen.trans horigin hfed
  exact ⟨(feedAll_sound frames .empty (fixOrigin_sound frames h).1).1,
    hmoves.invariant (fun t => t.Grounded) (fun _ _ hm ht => hm.grounded ht) hg⟩

/-- Before anything is released, nothing is settled. -/
theorem intake_accounted (frames : List (TrackId × Frame)) (hnodup : (frames.map Prod.fst).Nodup) (h : p.Sound j)
    (hsorted : (p.intake w.outlet frames j).1.2.channels.Sorted) :
    let fed := p.intake w.outlet frames j
    fed.1.2.Accounted [] fed.1.2.ready fed.1.1 fed.1.2 := by
  intro fed
  obtain ⟨hpublished, hheld, hdiscarded, hfailures⟩ := intake_report (w := w) frames hnodup h
  refine ⟨rfl, rfl, rfl, fun _ hm => absurd hm List.not_mem_nil, ?_, fun id hnot => ?_⟩
  · rintro ⟨id, c⟩ hm
    obtain ⟨hc, hh⟩ := (mem_ready hsorted).1 hm
    refine ⟨hc, fun fate hl => ?_⟩
    cases fate with
    | published =>
      change _ ∈ fed.1.1.published at hl
      rw [hpublished] at hl
      cases hl
    | failed e =>
      rw [hfailures id e c hl hc] at hh
      cases hh
    | held =>
      change _ ∈ fed.1.1.held at hl
      rw [hheld] at hl
      cases hl
    | discarded =>
      change _ ∈ fed.1.1.discarded at hl
      rw [hdiscarded] at hl
      cases hl
  · refine ⟨by rw [hheld]; exact List.not_mem_nil, fun d hd => ?_⟩
    cases hh : d.isHolding with
    | false => rfl
    | true => exact absurd (List.mem_map_of_mem ((mem_ready hsorted).2 ⟨hd, hh⟩)) hnot

/-- **A cycle settles every segment** that is in a slot once the frames are taken. -/
theorem cycle_accounted (frames : List (TrackId × Frame)) (hnodup : (frames.map Prod.fst).Nodup) (h : p.Sound j)
    (hg : Presentation.Grounded ⟨p, j⟩) :
    let fed := (p.intake w.outlet frames j).1.2
    let out := p.cycle w.outlet frames j
    fed.Accounted fed.ready [] out.1.1 out.1.2 := by
  intro fed out
  obtain ⟨hsound, hgrounded⟩ := intake_sound (w := w) frames h hg
  have hwindow : ∀ e ∈ fed.ready, ∃ window, fed.window? e.1 e.2 = some window := by
    rintro ⟨id, c⟩ hm
    obtain ⟨hc, hh⟩ := (mem_ready hsound.sorted).1 hm
    exact window?_of_holding hsound hgrounded hc hh
  have hend := releaseAll_accounted (w := w) (intake_accounted frames hnodup h hsound.sorted) hsound.sorted hwindow
    (p.intake w.outlet frames j).2
  obtain ⟨hpublisher, failure, hreport⟩ := cycle_eq (w := w) (p := p) (j := j) frames
  change out.1.2 = _ at hpublisher
  change out.1.1 = _ at hreport
  rw [hpublisher, hreport]
  -- the report differs only in what became of the manifest
  have hlists : ∀ (r : CycleReport) id c fate, ({ r with manifestFailure := failure } : CycleReport).Lists
      fed.settings id c fate ↔ r.Lists fed.settings id c fate := fun r id c fate => by cases fate <;> exact Iff.rfl
  refine ⟨hend.split, hend.settings, hend.origin, fun e hm => ?_, fun e hm => absurd hm List.not_mem_nil, hend.others⟩
  obtain ⟨fate, window, hw, hverdict, hfate, hslot⟩ := hend.settled e hm
  exact ⟨fate, window, hw, hverdict, fun fate' => (hlists _ _ _ _).trans (hfate fate'), hslot⟩

end Publisher

theorem Fate.eq_held_iff (fate : Fate) : fate = .held ↔ fate.verdict = .hold := by
  cases fate <;> simp [verdict]

theorem Fate.eq_discarded_iff (fate : Fate) : fate = .discarded ↔ fate.verdict = .discard := by
  cases fate <;> simp [verdict]

namespace Presentation

/-- **What becomes of finished segments.**  After the frames of a cycle are taken, every track that holds a segment has a
window, and its segment meets with exactly one fate: its file is in the report, the disk failed it, or it is held or
discarded.  Video is never held or discarded; audio is so exactly when the gate says so as it stands after the cycle.
What is still held afterwards is what the report says. -/
theorem cycle_outcome (w : World) (settings : Settings) (ops : List Operation) (frames : List (TrackId × Frame))
    (hnodup : (frames.map Prod.fst).Nodup) :
    let s := (start settings).run w ops
    let fed := (s.publisher.intake w.outlet frames s.journal).1.2
    let out := s.publisher.cycle w.outlet frames s.journal
    let report := out.1.1
    let gate := out.1.2.gate
    (∀ id c, fed.channels.find? id = some c → c.isHolding = true → ∃ window, fed.window? id c = some window ∧
      (∃! fate, report.Lists fed.settings id c fate) ∧
      (c.kind = .video → id ∉ report.held ∧ id ∉ report.discarded) ∧
      (c.kind = .audio →
        (id ∈ report.held ↔ gate.audioOnly = false ∧ gate.video ≠ [] ∧ gate.videoStarted = false) ∧
        (id ∈ report.discarded ↔ gate.audioOnly = false ∧ gate.video ≠ [] ∧ gate.videoStarted = true ∧
          ∃ origin, gate.origin = some origin ∧ window.start < origin))) ∧
    ∀ id, (∃ c, out.1.2.channels.find? id = some c ∧ c.isHolding = true) ↔ id ∈ report.held := by
  intro s fed out report gate
  have hsound : s.publisher.Sound s.journal := run_sound w settings ops
  have hgrounded : s.Grounded := run_grounded w settings ops
  have hsorted : fed.channels.Sorted := (Publisher.intake_sound (w := w) frames hsound hgrounded).1.sorted
  have hend : fed.Accounted fed.ready [] report out.1.2 := Publisher.cycle_accounted frames hnodup hsound hgrounded
  refine ⟨fun id c hc hh => ?_, fun id => ?_⟩
  · obtain ⟨fate, window, hw, hverdict, hfate, -⟩ := hend.settled (id, c) ((Publisher.mem_ready hsorted).2 ⟨hc, hh⟩)
    obtain ⟨-, hkind⟩ := Publisher.window?_eq_some hw
    have hheld : id ∈ report.held ↔ (gate.judge window).1 = .hold := by
      rw [← hverdict, ← fate.eq_held_iff, eq_comm]
      exact hfate .held
    have hdiscarded : id ∈ report.discarded ↔ (gate.judge window).1 = .discard := by
      rw [← hverdict, ← fate.eq_discarded_iff, eq_comm]
      exact hfate .discarded
    refine ⟨window, hw, ⟨fate, (hfate fate).2 rfl, fun fate' h => (hfate fate').1 h⟩, fun hv => ?_, fun ha => ?_⟩
    · rw [hheld, hdiscarded, Gate.judge_of_video (hkind.trans hv)]
      exact ⟨nofun, nofun⟩
    · rw [hheld, hdiscarded]
      exact ⟨gate.judge_eq_hold (hkind.trans ha), gate.judge_eq_discard (hkind.trans ha)⟩
  · by_cases hm : id ∈ fed.ready.map Prod.fst
    · obtain ⟨⟨id, c⟩, hentry, rfl⟩ := List.mem_map.1 hm
      obtain ⟨fate, window, -, -, hfate, d, hd, hslot⟩ := hend.settled (id, c) hentry
      have hheld : id ∈ report.held ↔ fate = .held := (hfate .held).trans eq_comm
      rw [hheld, ← hslot]
      constructor
      · rintro ⟨d', hd', hh⟩
        rw [hd] at hd'
        rwa [Option.some.inj hd']
      · exact fun hh => ⟨d, hd, hh⟩
    · obtain ⟨hheld, hfree⟩ := hend.others id hm
      refine iff_of_false ?_ hheld
      rintro ⟨d, hd, hh⟩
      rw [hfree d hd] at hh
      cases hh

/-- Two seconds of audio are a segment, and wait in the slot for a video track that has not begun. -/
theorem cycle_outcome_heldAudio :
    let s := (start .default).run .obliging [.addTrack 1 .video, .addTrack 2 .audio]
    let out := s.publisher.cycle World.obliging.outlet [(2, twoSeconds)] s.journal
    ([(2, twoSeconds)].map Prod.fst).Nodup ∧ 2 ∈ out.1.1.held ∧
      ∃ c, out.1.2.channels.find? 2 = some c ∧ c.isHolding = true := by
  have hnodup : ([(2, twoSeconds)].map Prod.fst).Nodup := by simp
  obtain ⟨-, hholding⟩ :=
    cycle_outcome .obliging .default [.addTrack 1 .video, .addTrack 2 .audio] [(2, twoSeconds)] hnodup
  dsimp only at hholding ⊢
  refine ⟨hnodup, ?held, (hholding 2).2 ?held⟩
  decide +kernel

end Presentation
end Packager

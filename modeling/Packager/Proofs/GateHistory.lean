import Packager.Gate
/-!
# Proofs.GateHistory — the gate answers as its history says

A gate keeps two sets, an instant and a flag.  They stand for the whole history of calls: which tracks are active, which
of them were let through since they were last removed, and the latest of the starts that opened a track.
`after_eq_history` compares every state and every answer with functions that read the history alone.
-/
namespace Packager

inductive GateCall where
  | addTrack (track : TrackId) (kind : Kind)
  | removeTrack (track : TrackId)
  | forceAudioOnly
  | judge (window : Window)
  deriving DecidableEq, Repr

namespace GateCall

def removes (track : TrackId) : GateCall → Bool
  | removeTrack other => other == track
  | _ => false

/-- Whether a call asks about a video window of a track. -/
def shows (track : TrackId) : GateCall → Bool
  | judge w => w.kind == .video && w.track == track
  | _ => false

def video? : GateCall → Option TrackId
  | addTrack track .video => some track
  | _ => none

end GateCall

/-- The calls on a gate, the latest first. -/
abbrev GateHistory := List GateCall

/-! ## What a history says -/

namespace GateHistory

def since (track : TrackId) (h : GateHistory) : GateHistory := h.takeWhile (!·.removes track)

/-- Whether a track was added as video and not removed since. -/
def Active (track : TrackId) (h : GateHistory) : Prop := .addTrack track .video ∈ h.since track

instance (track : TrackId) (h : GateHistory) : Decidable (h.Active track) := inferInstanceAs (Decidable (_ ∈ _))

/-- Whether a video window of a track was asked about since the track was last removed. -/
def Shown (track : TrackId) (h : GateHistory) : Prop := ∃ call ∈ h.since track, call.shows track = true

instance (track : TrackId) (h : GateHistory) : Decidable (h.Shown track) := inferInstanceAs (Decidable (∃ call ∈ _, _))

/-- The active video tracks. -/
def active (h : GateHistory) : List TrackId := (h.filterMap GateCall.video?).filter fun track => h.Active track

/-- The starts of the video windows that were the first of their track, from the beginning or from a removal on. -/
def openings : GateHistory → List Nanos
  | [] => []
  | .judge w :: h => if w.kind = .video ∧ ¬Shown w.track h then w.start :: openings h else openings h
  | _ :: h => openings h

/-- The verdict that a history calls for. -/
def verdict (h : GateHistory) (w : Window) : Verdict :=
  if w.kind = .video then .publish
  else if .forceAudioOnly ∈ h ∨ h.active = [] then .publish
  else if ∃ track ∈ h.active, ¬h.Shown track then .hold
  else if ∃ origin ∈ h.openings.max?, w.start < origin then .discard
  else .publish

/-- The verdicts that a history calls for at its own questions, the latest first. -/
def verdicts : GateHistory → List Verdict
  | [] => []
  | .judge w :: h => verdict h w :: verdicts h
  | _ :: h => verdicts h

theorem mem_active {h : GateHistory} {track : TrackId} : track ∈ h.active ↔ h.Active track := by
  unfold active
  rw [List.mem_filter, decide_eq_true_eq]
  constructor
  · exact And.right
  · intro ha
    have hm : GateCall.addTrack track .video ∈ h := (List.takeWhile_sublist _).mem ha
    exact ⟨List.mem_filterMap.2 ⟨_, hm, rfl⟩, ha⟩

theorem since_cons_of_removes {call : GateCall} {track : TrackId} (hr : call.removes track = true) (h : GateHistory) :
    since track (call :: h) = [] := by
  simp [since, hr]

theorem since_cons_of_keeps {call : GateCall} {track : TrackId} (hr : call.removes track = false) (h : GateHistory) :
    since track (call :: h) = call :: since track h := by
  simp [since, hr]

theorem active_cons (call : GateCall) (h : GateHistory) (track : TrackId) :
    Active track (call :: h) ↔ call.removes track = false ∧ (call = .addTrack track .video ∨ h.Active track) := by
  unfold Active
  cases hr : call.removes track with
  | true => simp [since_cons_of_removes hr]
  | false => simp [since_cons_of_keeps hr, eq_comm]

theorem shown_cons (call : GateCall) (h : GateHistory) (track : TrackId) :
    Shown track (call :: h) ↔ call.removes track = false ∧ (call.shows track = true ∨ h.Shown track) := by
  unfold Shown
  cases hr : call.removes track with
  | true => simp [since_cons_of_removes hr]
  | false => simp [since_cons_of_keeps hr]

/-- What opened a track stays an opening. -/
theorem openings_append (later h : GateHistory) : h.openings <:+ openings (later ++ h) := by
  induction later with
  | nil => exact List.suffix_rfl
  | cons call later ih =>
    cases call with
    | judge w =>
      rw [List.cons_append, openings]
      split
      · exact ih.trans (List.suffix_cons _ _)
      · exact ih
    | addTrack track kind => exact ih
    | removeTrack track => exact ih
    | forceAudioOnly => exact ih

end GateHistory

/-! ## What a gate keeps of it -/

namespace Gate

def apply (g : Gate) : GateCall → Gate
  | .addTrack track kind => g.addTrack track kind
  | .removeTrack track => g.removeTrack track
  | .forceAudioOnly => g.forceAudioOnly
  | .judge window => (g.judge window).2

/-- The gate after a history, from its fresh state. -/
def after : GateHistory → Gate
  | [] => empty
  | call :: h => (after h).apply call

/-- The answers that a gate gave in a history, the latest first. -/
def answers : GateHistory → List Verdict
  | [] => []
  | .judge w :: h => ((after h).judge w).1 :: answers h
  | _ :: h => answers h

/-- Whether a gate stands for a history. -/
structure Reflects (g : Gate) (h : GateHistory) : Prop where
  video : ∀ track, track ∈ g.video ↔ h.Active track
  started : ∀ track, track ∈ g.started ↔ h.Shown track
  origin : g.origin = h.openings.max?
  audioOnly : g.audioOnly = true ↔ .forceAudioOnly ∈ h

/-- The state after a question: nothing but the first video window of a track changes it. -/
theorem judge_snd (g : Gate) (w : Window) : (g.judge w).2 = if w.kind = .video then g.start w else g := by
  unfold judge
  cases w.kind with
  | video => rfl
  | audio =>
    simp only [reduceCtorEq, if_false]
    split
    · rfl
    · split
      · rfl
      · split
        · split <;> rfl
        · rfl

section
variable {g : Gate} {h : GateHistory}

theorem Reflects.addTrack (hr : g.Reflects h) (track : TrackId) (kind : Kind) :
    (g.addTrack track kind).Reflects (.addTrack track kind :: h) := by
  have hshown : ∀ t, GateHistory.Shown t (.addTrack track kind :: h) ↔ h.Shown t := fun t => by
    simp [GateHistory.shown_cons, GateCall.removes, GateCall.shows]
  have hforced : GateCall.forceAudioOnly ∈ GateCall.addTrack track kind :: h ↔ .forceAudioOnly ∈ h := by simp
  cases kind with
  | audio =>
    refine ⟨fun t => ?_, fun t => (hr.started t).trans (hshown t).symm, hr.origin, hr.audioOnly.trans hforced.symm⟩
    rw [GateHistory.active_cons]
    show t ∈ g.video ↔ _
    simp [GateCall.removes, hr.video]
  | video =>
    refine ⟨fun t => ?_, fun t => (hr.started t).trans (hshown t).symm, hr.origin, hr.audioOnly.trans hforced.symm⟩
    rw [GateHistory.active_cons]
    show t ∈ g.video.insert track ↔ _
    rw [List.mem_insert_iff, hr.video]
    simp [GateCall.removes, eq_comm]

theorem Reflects.removeTrack (hr : g.Reflects h) (track : TrackId) :
    (g.removeTrack track).Reflects (.removeTrack track :: h) := by
  refine ⟨fun t => ?_, fun t => ?_, hr.origin, hr.audioOnly.trans (by simp)⟩
  · rw [GateHistory.active_cons]
    show t ∈ g.video.filter (· != track) ↔ _
    rw [List.mem_filter, hr.video]
    by_cases ht : track = t
    · simp [GateCall.removes, ht]
    · simp [GateCall.removes, ht, Ne.symm ht]
  · rw [GateHistory.shown_cons]
    show t ∈ g.started.filter (· != track) ↔ _
    rw [List.mem_filter, hr.started]
    by_cases ht : track = t
    · simp [GateCall.removes, ht]
    · simp [GateCall.removes, GateCall.shows, ht, Ne.symm ht]

theorem Reflects.forceAudioOnly (hr : g.Reflects h) : g.forceAudioOnly.Reflects (.forceAudioOnly :: h) := by
  refine ⟨fun t => ?_, fun t => ?_, hr.origin, ?_⟩
  · rw [GateHistory.active_cons]
    show t ∈ g.video ↔ _
    simp [GateCall.removes, hr.video]
  · rw [GateHistory.shown_cons]
    show t ∈ g.started ↔ _
    simp [GateCall.removes, GateCall.shows, hr.started]
  · simp [Gate.forceAudioOnly]

/-- **The first video window of a track** opens it and counts for the origin; a later one changes nothing. -/
theorem Reflects.start (hr : g.Reflects h) {w : Window} (hw : w.kind = .video) :
    (g.start w).Reflects (.judge w :: h) := by
  have hactive : ∀ t, GateHistory.Active t (.judge w :: h) ↔ h.Active t := fun t => by
    simp [GateHistory.active_cons, GateCall.removes]
  have hshown : ∀ t, GateHistory.Shown t (.judge w :: h) ↔ w.track = t ∨ h.Shown t := fun t => by
    simp [GateHistory.shown_cons, GateCall.removes, GateCall.shows, hw]
  have hforced : GateCall.forceAudioOnly ∈ GateCall.judge w :: h ↔ .forceAudioOnly ∈ h := by simp
  by_cases hs : h.Shown w.track
  · have hopen : GateHistory.openings (.judge w :: h) = h.openings := by simp [GateHistory.openings, hs]
    have hstart : g.start w = g := by
      unfold Gate.start
      rw [if_pos (by simpa using (hr.started w.track).2 hs)]
    rw [hstart]
    refine ⟨fun t => (hr.video t).trans (hactive t).symm, fun t => ?_, ?_, hr.audioOnly.trans hforced.symm⟩
    · rw [hr.started, hshown]
      constructor
      · exact Or.inr
      · rintro (rfl | ht)
        · exact hs
        · exact ht
    · rw [hr.origin, hopen]
  · have hopen : GateHistory.openings (.judge w :: h) = w.start :: h.openings := by simp [GateHistory.openings, hw, hs]
    have hstart : g.start w = { g with
        started := g.started.insert w.track
        origin := (w.start :: h.openings).max? } := by
      unfold Gate.start
      rw [if_neg (by simpa using fun hm => hs ((hr.started w.track).1 hm)), hr.origin, List.max?_cons]
      cases h.openings.max? with
      | none => rfl
      | some o => simp [Nat.max_comm]
    rw [hstart]
    refine ⟨fun t => (hr.video t).trans (hactive t).symm, fun t => ?_, by rw [hopen], hr.audioOnly.trans hforced.symm⟩
    show t ∈ g.started.insert w.track ↔ _
    rw [List.mem_insert_iff, hr.started, hshown, eq_comm]

theorem Reflects.judge (hr : g.Reflects h) (w : Window) : (g.judge w).2.Reflects (.judge w :: h) := by
  rw [judge_snd]
  cases hk : w.kind with
  | video => simpa using hr.start hk
  | audio =>
    simp only [reduceCtorEq, if_false]
    have hopen : GateHistory.openings (.judge w :: h) = h.openings := by simp [GateHistory.openings, hk]
    refine ⟨fun t => ?_, fun t => ?_, by rw [hr.origin, hopen], hr.audioOnly.trans (by simp)⟩
    · rw [GateHistory.active_cons]
      simpa [GateCall.removes] using hr.video t
    · rw [GateHistory.shown_cons]
      simpa [GateCall.removes, GateCall.shows, hk] using hr.started t

theorem Reflects.apply (hr : g.Reflects h) (call : GateCall) : (g.apply call).Reflects (call :: h) := by
  cases call with
  | addTrack track kind => exact hr.addTrack track kind
  | removeTrack track => exact hr.removeTrack track
  | forceAudioOnly => exact hr.forceAudioOnly
  | judge w => exact hr.judge w

theorem Reflects.videoStarted (hr : g.Reflects h) :
    g.videoStarted = true ↔ (∃ track, h.Active track) ∧ ∀ track, h.Active track → h.Shown track := by
  unfold Gate.videoStarted
  rw [Bool.and_eq_true, List.all_eq_true]
  constructor
  · rintro ⟨hne, hall⟩
    obtain ⟨t, ht⟩ := List.exists_mem_of_ne_nil g.video (by simpa using hne)
    refine ⟨⟨t, (hr.video t).1 ht⟩, fun u hu => (hr.started u).1 ?_⟩
    simpa using hall u ((hr.video u).2 hu)
  · rintro ⟨⟨t, ht⟩, hall⟩
    refine ⟨?_, fun u hu => ?_⟩
    · have hm := (hr.video t).2 ht
      cases hv : g.video with
      | nil => simp [hv] at hm
      | cons => rfl
    · simpa using (hr.started u).2 (hall u ((hr.video u).1 hu))

/-- **A gate that stands for a history gives the verdict of the history.** -/
theorem Reflects.verdict (hr : g.Reflects h) (w : Window) : (g.judge w).1 = h.verdict w := by
  have hnil : g.video.isEmpty = true ↔ h.active = [] := by
    rw [List.isEmpty_iff, List.eq_nil_iff_forall_not_mem, List.eq_nil_iff_forall_not_mem]
    exact forall_congr' fun t => not_congr ((hr.video t).trans GateHistory.mem_active.symm)
  unfold Gate.judge GateHistory.verdict
  cases w.kind with
  | video => rfl
  | audio =>
    simp only [reduceCtorEq, if_false]
    by_cases hfree : GateCall.forceAudioOnly ∈ h ∨ h.active = []
    · have hg : (g.audioOnly || g.video.isEmpty) = true := by
        rw [Bool.or_eq_true]
        exact hfree.imp hr.audioOnly.2 hnil.2
      rw [if_pos hg, if_pos hfree]
    · have hg : ¬(g.audioOnly || g.video.isEmpty) = true := by
        rw [Bool.or_eq_true]
        exact fun hor => hfree (hor.imp hr.audioOnly.1 hnil.1)
      rw [if_neg hg, if_neg hfree]
      -- there is video, so it has started unless an active track was not shown
      have hwait : g.videoStarted = false ↔ ∃ track ∈ h.active, ¬h.Shown track := by
        rw [← Bool.not_eq_true, hr.videoStarted]
        constructor
        · intro hn
          apply Decidable.byContradiction
          intro hc
          apply hn
          obtain ⟨t, ht⟩ := List.exists_mem_of_ne_nil h.active fun he => hfree (.inr he)
          refine ⟨⟨t, GateHistory.mem_active.1 ht⟩, fun u hu => Decidable.byContradiction fun hs => ?_⟩
          exact hc ⟨u, GateHistory.mem_active.2 hu, hs⟩
        · rintro ⟨t, ht, hs⟩ ⟨-, hall⟩
          exact hs (hall t (GateHistory.mem_active.1 ht))
      by_cases hw : ∃ track ∈ h.active, ¬h.Shown track
      · rw [if_pos (by simpa using hwait.2 hw), if_pos hw]
      · rw [if_neg (by simpa using fun hv => hw (hwait.1 hv)), if_neg hw, hr.origin]
        cases h.openings.max? with
        | none => simp
        | some origin =>
          by_cases hlt : w.start < origin
          · simp [hlt]
          · simp [hlt]

end

theorem reflects_after (h : GateHistory) : (after h).Reflects h := by
  induction h with
  | nil => exact ⟨fun _ => by simp [after, empty, GateHistory.Active, GateHistory.since],
      fun _ => by simp [after, empty, GateHistory.Shown, GateHistory.since], rfl, by simp [after, empty]⟩
  | cons call h ih => exact ih.apply call

theorem answers_eq_verdicts (h : GateHistory) : answers h = h.verdicts := by
  induction h with
  | nil => rfl
  | cons call h ih =>
    cases call with
    | judge w => rw [answers, GateHistory.verdicts, (reflects_after h).verdict w, ih]
    | addTrack track kind => exact ih
    | removeTrack track => exact ih
    | forceAudioOnly => exact ih

theorem max?_mono_of_suffix {l m : List Nat} (h : l <:+ m) {x : Nat} (hx : l.max? = some x) :
    ∃ y, m.max? = some y ∧ x ≤ y := by
  obtain ⟨hm, -⟩ := List.max?_eq_some_iff.1 hx
  have hmem : x ∈ m := h.mem hm
  cases hy : m.max? with
  | none =>
    rw [List.max?_eq_none_iff.1 hy] at hmem
    cases hmem
  | some y => exact ⟨y, rfl, (List.max?_eq_some_iff.1 hy).2 x hmem⟩

/-- **The state and the answers of a gate are those of its history.**  The origin is the latest start of a window that
opened its track, and later calls never move it back. -/
theorem after_eq_history (h : GateHistory) :
    (after h).origin = h.openings.max? ∧
    (∀ later o, (after h).origin = some o → ∃ o', (after (later ++ h)).origin = some o' ∧ o ≤ o') ∧
    (∀ track, track ∈ (after h).video ↔ h.Active track) ∧
    (∀ track, track ∈ (after h).started ↔ h.Shown track) ∧
    ((after h).audioOnly = true ↔ .forceAudioOnly ∈ h) ∧
    ((after h).videoStarted = true ↔ (∃ track, h.Active track) ∧ ∀ track, h.Active track → h.Shown track) ∧
    answers h = h.verdicts := by
  have hr := reflects_after h
  refine ⟨hr.origin, fun later o ho => ?_, hr.video, hr.started, hr.audioOnly, hr.videoStarted, answers_eq_verdicts h⟩
  rw [hr.origin] at ho
  rw [(reflects_after (later ++ h)).origin]
  exact max?_mono_of_suffix (GateHistory.openings_append later h) ho

/-- The origin outlives the track that set it; the track waits again when it comes back. -/
example : GateHistory.verdicts
    [.judge ⟨1, .audio, 400, 500⟩, .judge ⟨2, .video, 300, 900⟩, .judge ⟨1, .audio, 100, 200⟩, .addTrack 2 .video,
      .removeTrack 2, .judge ⟨1, .audio, 400, 600⟩, .judge ⟨2, .video, 500, 900⟩, .addTrack 2 .video] =
    [.discard, .publish, .hold, .discard, .publish] := by decide

end Gate
end Packager

import Packager.CommandLine.Run
import Packager.Proofs.AdtsFrames
import Packager.Proofs.SharedOrigin
import Packager.Proofs.Turns
/-!
# Proofs.FeedOrder — the frames of two streams in presentation order

The program feeds a publisher one cycle for each frame (`CommandLine.publish_eq`).  The merge has every frame of both
streams once, those of each stream in their own order and all of them by time stamp, audio first where two are equal
(`CommandLine.merge_precedes`).  So the first cycle fixes the smallest time stamp as the origin, and every track counts
from it for the rest of the run (`Presentation.Fed`).
-/
namespace Packager

/-! ## The frames of an audio stream -/

namespace CommandLine

theorem getElem_numbered {α : Type} {items : List α} {n : Nat} (h : n < (numbered items).length) :
    (numbered items)[n] = (n, items.get ⟨n, by simpa [numbered] using h⟩) := by
  simp [numbered]

/-- The time stamp of the frame with a number, at a sampling rate. -/
def stamp (rate n : Nat) : Nanos := streamStart + n * samplesPerFrame * nanosPerSecond / rate

theorem stamp_mono (rate : Nat) {m n : Nat} (h : m ≤ n) : stamp rate m ≤ stamp rate n := by
  refine Nat.add_le_add_left (Nat.div_le_div_right ?_) _
  exact Nat.mul_le_mul_right _ (Nat.mul_le_mul_right _ h)

/-- **The frames of an ADTS stream** are what it splits into, stamped by their numbers at one rate of the table. -/
theorem timedFrames_ok {data : Bytes} {audio : List AudioFrame} (h : timedFrames data = .ok audio) :
    Adts.split data = .ok (audio.map (·.data)) ∧
      ∃ rate ∈ samplingRates, ∀ n (hn : n < audio.length), audio[n].pts = stamp rate n := by
  unfold timedFrames at h
  cases hs : Adts.split data with
  | error fault =>
    rw [hs] at h
    cases h
  | ok frames =>
    rw [hs] at h
    cases frames with
    | nil =>
      cases h
      exact ⟨rfl, 96000, by decide, nofun⟩
    | cons first rest =>
      -- the first frame is a whole one, so its header is there
      obtain ⟨frames, torn, rfl, hframes, ht⟩ := Adts.exists_frames data
      rw [Adts.split_frames hframes ht] at hs
      obtain ⟨-, rfl⟩ := Adts.answer_eq_ok.1 hs
      obtain ⟨header, hd, -⟩ := hframes first List.mem_cons_self
      obtain ⟨-, -, -, -, -, -, -, -, -, -, -, hindex, -⟩ := Adts.header?_eq_some.1 hd
      have hrate : header.samplingRate ∈ samplingRates := by
        unfold Adts.Header.samplingRate
        rw [List.getD_eq_getElem?_getD, List.getElem?_eq_getElem hindex]
        exact List.getElem_mem hindex
      simp only [bind, Except.bind, hd] at h
      cases h
      refine ⟨?_, header.samplingRate, hrate, fun n hn => ?_⟩
      · rw [List.map_map]
        refine congrArg Except.ok (List.ext_getElem (by simp [numbered]) fun n _ _ => ?_)
        simp [getElem_numbered]
      · simp [getElem_numbered, stamp]

theorem timedFrames_sorted {data : Bytes} {audio : List AudioFrame} (h : timedFrames data = .ok audio) :
    audio.Pairwise fun a b => a.pts ≤ b.pts := by
  obtain ⟨-, rate, -, hpts⟩ := timedFrames_ok h
  refine List.pairwise_iff_getElem.2 fun m n hm hn hlt => ?_
  rw [hpts m hm, hpts n hn]
  exact stamp_mono rate hlt.le

theorem seven_mul_length_le : ∀ {frames : List Bytes}, (∀ frame ∈ frames, Adts.IsFrame frame) →
    7 * frames.length ≤ frames.flatten.length
  | [], _ => Nat.le_refl 0
  | frame :: frames, h => by
    obtain ⟨hframe, hframes⟩ := List.forall_mem_cons.1 h
    have hseven := hframe.seven_le
    have ih := seven_mul_length_le hframes
    rw [List.length_cons, List.flatten_cons, List.length_append]
    omega

/-- **Time stamps fit 64 bits** in a stream of less than half a terabyte, as every frame takes seven bytes. -/
theorem timedFrames_fit {data : Bytes} {audio : List AudioFrame} (h : timedFrames data = .ok audio)
    (hshort : data.length < 2 ^ 39) : ∀ f ∈ audio, f.pts - streamStart < UInt64.size := by
  obtain ⟨hs, rate, hrate, hpts⟩ := timedFrames_ok h
  obtain ⟨frames, torn, rfl, hframes, ht⟩ := Adts.exists_frames data
  rw [Adts.split_frames hframes ht] at hs
  obtain ⟨-, rfl⟩ := Adts.answer_eq_ok.1 hs
  have hcount := seven_mul_length_le hframes
  rw [List.length_append] at hshort
  rw [List.length_map] at hcount
  intro f hf
  obtain ⟨n, hn, rfl⟩ := List.getElem_of_mem hf
  have hslowest : 7350 ≤ rate := (by decide : ∀ r ∈ samplingRates, 7350 ≤ r) rate hrate
  rw [hpts n hn, stamp, Nat.add_sub_cancel_left]
  refine (Nat.div_lt_iff_lt_mul (by omega)).2 (lt_of_lt_of_le ?_ (Nat.mul_le_mul_left _ hslowest))
  show n * 1024 * 1000000000 < 2 ^ 64 * 7350
  omega

/-- **The frames are fed with these time stamps exactly when all fit 64 bits.** -/
theorem audioFrames_eq_iff {data : Bytes} {audio : List AudioFrame} (h : timedFrames data = .ok audio) :
    audioFrames data = .ok audio ↔ ∀ f ∈ audio, f.pts - streamStart < UInt64.size := by
  obtain ⟨-, rate, -, hpts⟩ := timedFrames_ok h
  have hfed : audioFrames data = .ok (audio.map fun f => { f with pts := wrapStamp f.pts }) := by
    unfold audioFrames
    rw [h]
    rfl
  have hwrap : ∀ f ∈ audio, wrapStamp f.pts = f.pts ↔ f.pts - streamStart < UInt64.size := by
    intro f hf
    obtain ⟨n, hn, rfl⟩ := List.getElem_of_mem hf
    have hstart : streamStart + (audio[n].pts - streamStart) = audio[n].pts := by
      rw [hpts n hn, stamp, Nat.add_sub_cancel_left]
    refine Iff.trans ?_ (Nat.mod_eq_iff_lt (by decide))
    unfold wrapStamp
    generalize audio[n].pts - streamStart = elapsed at hstart
    rw [← hstart, Nat.add_left_cancel_iff]
  rw [hfed, Except.ok.injEq]
  constructor
  · intro hsame f hf
    refine (hwrap f hf).1 ?_
    obtain ⟨n, hn, rfl⟩ := List.getElem_of_mem hf
    have hn' := congrArg (fun frames => frames[n]?.map (·.pts)) hsame
    simpa [hn] using hn'
  · intro hfit
    refine (List.map_congr_left fun f hf => ?_).trans (List.map_id audio)
    rw [(hwrap f hf).2 (hfit f hf)]
    rfl

/-! ## The merge -/

/-- Whether a frame may be fed before another: it is older, or as old and not video before audio. -/
def Precedes (a b : TrackId × Frame) : Prop :=
  a.2.pts < b.2.pts ∨ a.2.pts = b.2.pts ∧ (a.2.kind = .video → b.2.kind = .video)

instance (a b : TrackId × Frame) : Decidable (Precedes a b) := inferInstanceAs (Decidable (_ ∨ _))

theorem Precedes.pts_le {a b : TrackId × Frame} (h : Precedes a b) : a.2.pts ≤ b.2.pts :=
  h.elim Nat.le_of_lt fun ⟨he, _⟩ => he.le

theorem Precedes.trans {a b c : TrackId × Frame} (h : Precedes a b) (h' : Precedes b c) : Precedes a c := by
  rcases h with h | ⟨he, hk⟩
  · exact .inl (h.trans_le h'.pts_le)
  · rcases h' with h' | ⟨he', hk'⟩
    · exact .inl (he.trans_lt h')
    · exact .inr ⟨he.trans he', hk' ∘ hk⟩

theorem Precedes.total (a b : TrackId × Frame) : Precedes a b ∨ Precedes b a := by
  rcases Nat.lt_trichotomy a.2.pts b.2.pts with h | h | h
  · exact .inl (.inl h)
  · by_cases hb : b.2.kind = .video
    · exact .inl (.inr ⟨h, fun _ => hb⟩)
    · exact .inr (.inr ⟨h.symm, fun hv => absurd hv hb⟩)
  · exact .inr (.inl h)

/-- The merge puts the frames as `Precedes` does, since an audio frame goes before a video frame as old. -/
theorem merge_eq (audio : List AudioFrame) (video : List VideoFrame) : merge audio video =
    List.merge (audio.map fun f => (audioTrack, .audio f)) (video.map fun f => (videoTrack, .video f))
      fun a b => Precedes a b := by
  have hsame : (merge audio video).map id =
      List.merge ((audio.map fun f => (audioTrack, .audio f)).map id) ((video.map fun f => (videoTrack, .video f)).map id)
        fun a b => Precedes a b := by
    refine List.map_merge fun a ha b hb => ?_
    obtain ⟨f, -, rfl⟩ := List.mem_map.1 ha
    rw [id, id, decide_eq_decide, Nat.le_iff_lt_or_eq]
    exact or_congr_right (iff_self_and.2 fun _ hv => nomatch hv)
  simpa only [List.map_id] using hsame

/-- **The merge is in presentation order** when the video is. -/
theorem merge_precedes {audio : List AudioFrame} {video : List VideoFrame}
    (haudio : audio.Pairwise fun a b => a.pts ≤ b.pts) (hvideo : video.Pairwise fun a b => a.pts ≤ b.pts) :
    (merge audio video).Pairwise Precedes := by
  have hsame : ∀ {a b : TrackId × Frame}, a.2.pts ≤ b.2.pts → a.2.kind = b.2.kind → Precedes a b := fun h hk =>
    (Nat.lt_or_eq_of_le h).imp_right fun he => ⟨he, fun hv => hk ▸ hv⟩
  rw [merge_eq]
  refine (List.pairwise_merge (fun a b c h h' => ?_) (fun a b => ?_) _ _ ?_ ?_).imp of_decide_eq_true
  · exact decide_eq_true ((of_decide_eq_true h).trans (of_decide_eq_true h'))
  · simpa using Precedes.total a b
  · exact List.pairwise_map.2 (haudio.imp fun {a b} h =>
      decide_eq_true (hsame (a := (audioTrack, .audio a)) (b := (audioTrack, .audio b)) h rfl))
  · exact List.pairwise_map.2 (hvideo.imp fun {a b} h =>
      decide_eq_true (hsame (a := (videoTrack, .video a)) (b := (videoTrack, .video b)) h rfl))

/-- What is kept of a merge is what is kept of the two lists, when that is nothing of one of them. -/
theorem filter_merge {α : Type} (le : α → α → Bool) (q : α → Bool) : ∀ {xs ys : List α},
    xs.filter q = [] ∨ ys.filter q = [] → (xs.merge ys le).filter q = xs.filter q ++ ys.filter q
  | [], ys, _ => by simp
  | x :: xs, [], _ => by simp
  | x :: xs, y :: ys, h => by
    rw [List.cons_merge_cons]
    split
    · have hrest : xs.filter q = [] ∨ (y :: ys).filter q = [] :=
        h.imp_left fun hx => List.filter_eq_nil_iff.2 fun a ha => List.filter_eq_nil_iff.1 hx a (List.mem_cons_of_mem x ha)
      rw [List.filter_cons, filter_merge le q hrest, List.filter_cons (x := x)]
      split <;> rfl
    · have hrest : (x :: xs).filter q = [] ∨ ys.filter q = [] :=
        h.imp_right fun hy => List.filter_eq_nil_iff.2 fun a ha => List.filter_eq_nil_iff.1 hy a (List.mem_cons_of_mem y ha)
      rw [List.filter_cons, filter_merge le q hrest, List.filter_cons (x := y)]
      split
      · have hx : (x :: xs).filter q = [] := h.resolve_right fun hy => by
          rw [List.filter_cons_of_pos ‹_›] at hy
          cases hy
        rw [hx]
        rfl
      · rfl

/-- **Every audio frame is in the merge once**, in the order of its stream. -/
theorem merge_audio (audio : List AudioFrame) (video : List VideoFrame) :
    ((merge audio video).filter (·.1 = audioTrack)).map (·.2) = audio.map .audio := by
  have haudio : (audio.map fun f => (audioTrack, Frame.audio f)).filter (·.1 = audioTrack) =
      audio.map fun f => (audioTrack, .audio f) := by simp [List.filter_eq_self]
  have hvideo : (video.map fun f => (videoTrack, Frame.video f)).filter (·.1 = audioTrack) = [] := by
    simp [List.filter_eq_nil_iff, audioTrack, videoTrack]
  unfold merge
  rw [filter_merge _ _ (.inr hvideo), haudio, hvideo, List.append_nil, List.map_map]
  rfl

/-- **Every video frame is in the merge once**, in the order of its stream. -/
theorem merge_video (audio : List AudioFrame) (video : List VideoFrame) :
    ((merge audio video).filter (·.1 = videoTrack)).map (·.2) = video.map .video := by
  have haudio : (audio.map fun f => (audioTrack, Frame.audio f)).filter (·.1 = videoTrack) = [] := by
    simp [List.filter_eq_nil_iff, audioTrack, videoTrack]
  have hvideo : (video.map fun f => (videoTrack, Frame.video f)).filter (·.1 = videoTrack) =
      video.map fun f => (videoTrack, .video f) := by simp [List.filter_eq_self]
  unfold merge
  rw [filter_merge _ _ (.inl haudio), haudio, hvideo, List.nil_append, List.map_map]
  rfl

/-- A frame of the merge is one of the audio stream on its track, or one of the video stream on its. -/
theorem mem_merge {audio : List AudioFrame} {video : List VideoFrame} {f : TrackId × Frame} :
    f ∈ merge audio video ↔ (∃ a ∈ audio, f = (audioTrack, .audio a)) ∨ ∃ v ∈ video, f = (videoTrack, .video v) := by
  unfold merge
  rw [List.mem_merge]
  simp only [List.mem_map, eq_comm]

/-- The first of frames in presentation order is the oldest. -/
theorem first_le {first f : TrackId × Frame} {rest : List (TrackId × Frame)}
    (h : (first :: rest).Pairwise Precedes) (hf : f ∈ first :: rest) : first.2.pts ≤ f.2.pts := by
  rcases List.mem_cons.1 hf with rfl | hf
  · exact Nat.le_refl _
  · exact (List.rel_of_pairwise_cons h hf).pts_le

/-- The smallest time stamp of both streams is that of the first frame of the merge. -/
theorem min?_pts {audio : List AudioFrame} {video : List VideoFrame} (h : (merge audio video).Pairwise Precedes) :
    (audio.map (·.pts) ++ video.map (·.pts)).min? = (merge audio video).head?.map (·.2.pts) := by
  have hmem : ∀ t, t ∈ audio.map (·.pts) ++ video.map (·.pts) ↔ ∃ f ∈ merge audio video, f.2.pts = t := by
    intro t
    rw [List.mem_append, List.mem_map, List.mem_map]
    constructor
    · rintro (⟨a, ha, rfl⟩ | ⟨v, hv, rfl⟩)
      · exact ⟨_, mem_merge.2 (.inl ⟨a, ha, rfl⟩), rfl⟩
      · exact ⟨_, mem_merge.2 (.inr ⟨v, hv, rfl⟩), rfl⟩
    · rintro ⟨f, hf, rfl⟩
      rcases mem_merge.1 hf with ⟨a, ha, rfl⟩ | ⟨v, hv, rfl⟩
      · exact .inl ⟨a, ha, rfl⟩
      · exact .inr ⟨v, hv, rfl⟩
  cases hmerge : merge audio video with
  | nil =>
    rw [hmerge] at hmem
    refine List.min?_eq_none_iff.2 (List.eq_nil_iff_forall_not_mem.2 fun t ht => ?_)
    obtain ⟨f, hf, -⟩ := (hmem t).1 ht
    cases hf
  | cons first rest =>
    rw [hmerge] at hmem h
    refine List.min?_eq_some_iff.2 ⟨(hmem _).2 ⟨first, List.mem_cons_self, rfl⟩, fun t ht => ?_⟩
    obtain ⟨f, hf, rfl⟩ := (hmem t).1 ht
    exact first_le h hf

/-! ## The operations of a run -/

/-- The tracks that are added before the first frame. -/
def registering (audio : List AudioFrame) (video : List VideoFrame) : List Operation :=
  (if video.isEmpty then [] else [.addTrack videoTrack .video]) ++
    if audio.isEmpty then [] else [.addTrack audioTrack .audio]

/-- A cycle for each frame. -/
def feeding (frames : List (TrackId × Frame)) : List Operation := frames.map fun frame => .cycle [frame]

/-- **A run adds its tracks and takes one cycle for each frame** of the merge before it shuts the publisher down. -/
theorem publish_eq {m : Type → Type} [Monad m] [LawfulMonad m] (outlet : Outlet m) (audio : List AudioFrame)
    (video : List VideoFrame) (p : Publisher) : publish outlet audio video p = (do
      let p ← (registering audio video ++ feeding (merge audio video)).foldlM (fun p op => op.run outlet p) p
      Prod.fst <$> p.shutdown outlet) := by
  have hfed : ∀ q : Publisher, (feeding (merge audio video)).foldlM (fun p op => op.run outlet p) q =
      (merge audio video).foldlM (fun p frame => Prod.snd <$> p.cycle outlet [frame]) q := fun q => List.foldlM_map
  unfold publish registering
  rw [List.foldlM_append]
  simp only [hfed]
  cases video.isEmpty <;> cases audio.isEmpty <;> simp [Operation.run]

end CommandLine

/-! ## The origin of the tracks -/

namespace Publisher

variable {w : World} {p : Publisher} {j : Journal}

theorem fixOrigin_origin (p : Publisher) (frames : List (TrackId × Frame)) :
    (p.fixOrigin frames).origin = p.origin.or (p.earliest frames) := by
  unfold fixOrigin
  cases horigin : p.origin with
  | some origin => exact horigin
  | none =>
    cases p.earliest frames with
    | some origin => rfl
    | none => exact horigin

theorem earliest_singleton {f : TrackId × Frame} (h : p.kind? f.1 ≠ none) : p.earliest [f] = some f.2.pts := by
  have hc : p.channels.contains f.1 = true := by
    simpa [kind?, SortedMap.contains, Option.isSome_iff_ne_none] using h
  unfold earliest
  rw [List.filter_cons, if_pos hc]
  rfl

theorem feed_keeps (acc : CycleReport × Publisher) (entry : TrackId × Frame) :
    let q := (feed w.outlet acc entry j).1.2
    q.kind? = acc.2.kind? ∧ q.origin = acc.2.origin := by
  obtain ⟨report, p⟩ := acc
  obtain ⟨id, frame⟩ := entry
  unfold feed
  dsimp only
  cases hc : p.channels.find? id with
  | none => exact ⟨rfl, rfl⟩
  | some c =>
    refine ⟨funext fun id' => ?_, rfl⟩
    have hkind := (Channel.feed_heads w p.settings id c frame j).1
    simp only [StateM.bind_apply, StateM.pure_apply]
    unfold kind?
    rw [find?_setChannel]
    by_cases he : id = id'
    · rw [if_pos he, ← he, hc]
      exact congrArg some hkind
    · rw [if_neg he]

/-- **A cycle keeps all tracks and their kinds**, and the origin when there is one. -/
theorem cycle_keeps {debuts : Debuts} (haligned : p.Aligned debuts) (hsound : p.Sound j)
    (frames : List (TrackId × Frame)) :
    let q := (p.cycle w.outlet frames j).1.2
    q.kind? = p.kind? ∧ q.origin = p.origin.or (p.earliest frames) := by
  intro q
  let inv : List (TrackId × Frame) → CycleReport × Publisher → Journal → Prop := fun _ acc _ =>
    acc.2.kind? = p.kind? ∧ acc.2.origin = p.origin.or (p.earliest frames)
  have hfed := StateM.foldlM_invariant (f := feed w.outlet) inv
    (fun entry _ acc k h => (feed_keeps acc entry).imp (·.trans h.1) (·.trans h.2)) frames (.empty, p.fixOrigin frames) j
    ⟨(fixOrigin_aligned frames haligned).2, p.fixOrigin_origin frames⟩
  obtain ⟨hkind, horigin⟩ := hfed
  have hsorted : (p.intake w.outlet frames j).1.2.channels.Sorted :=
    (feedAll_sound frames .empty (fixOrigin_sound frames hsound).1).1.sorted
  constructor
  · rw [← hkind]
    funext id
    have hsegmenter := (cycle_goesOn (w := w) (j := j) frames hsound.sorted).1 id
    have hk := congrArg (Option.map Segmenter.kind) hsegmenter
    rw [Option.map_map, Option.map_map] at hk
    exact hk
  · have hreleased := (cycle_eq (w := w) (p := p) (j := j) frames).1
    rw [show q = _ from hreleased]
    exact (releaseAll_inherits (current_ready hsorted).1.present _).origin.trans horigin

end Publisher

/-- A debut after a frame was one before, or is that of the frame. -/
theorem Debuts.take_cases {kinds : TrackId → Option Kind} {debuts : Debuts} {f : TrackId × Frame} {id : TrackId}
    {first : Nanos} (h : debuts.take kinds f id = some first) : debuts id = some first ∨ first = f.2.pts := by
  unfold take at h
  split at h
  · by_cases he : id = f.1
    · rw [he, Function.update_self] at h
      cases hd : debuts f.1 with
      | none =>
        rw [hd] at h
        exact .inr (Option.some.inj h).symm
      | some old =>
        rw [hd] at h
        exact .inl (by rw [he, hd]; exact h)
    · rw [Function.update_of_ne he] at h
      exact .inl h
  · exact .inl h

/-! ## Runs -/

namespace Presentation

variable {w : World} {s : Presentation} {kinds : TrackId → Option Kind} {origin : Option Nanos}

/-- What stays true of a publisher with certain tracks while it takes frames that are no older than the origin. -/
structure OnTime (kinds : TrackId → Option Kind) (origin : Option Nanos) (s : Presentation) : Prop where
  sound : s.publisher.Sound s.journal
  tracks : s.publisher.kind? = kinds
  fixed : s.publisher.origin = origin
  /-- No debut is older than the origin, and without an origin there is none. -/
  late : ∃ debuts, s.publisher.Aligned debuts ∧ ∀ id first, debuts id = some first → ∃ o, origin = some o ∧ o ≤ first

theorem onTime_start (settings : Settings) : OnTime (fun _ => none) none (start settings) where
  sound := start_sound settings
  tracks := rfl
  fixed := rfl
  late := ⟨fun _ => none, fun _ _ hc => (nomatch hc), nofun⟩

/-- Before there is an origin, a new track only adds its kind. -/
theorem OnTime.addTrack (h : OnTime kinds none s) {id : TrackId} (hfree : kinds id = none) (kind : Kind) :
    OnTime (Function.update kinds id (some kind)) none (s.apply w (.addTrack id kind)) := by
  obtain ⟨hsound, rfl, hfixed, debuts, haligned, hlate⟩ := h
  have hcontains : s.publisher.channels.contains id = false := by
    simpa [Publisher.kind?, SortedMap.contains] using hfree
  have hadded : (s.apply w (.addTrack id kind)).publisher =
      { s.publisher.setChannel id (.start s.publisher.settings id kind) with
        gate := s.publisher.gate.addTrack id kind } := by
    unfold apply Operation.run Publisher.addTrack
    simp [hcontains, hfixed]
  refine ⟨(apply_sound w s _ hsound).1, ?_, by rw [hadded]; exact hfixed, _, apply_aligned w hsound haligned _,
    fun id' first hfirst => ?_⟩
  · rw [hadded]
    funext id'
    have hkind : (Channel.start s.publisher.settings id kind).kind = kind := by cases kind <;> rfl
    unfold Publisher.kind?
    dsimp only
    rw [Publisher.find?_setChannel]
    by_cases he : id = id'
    · rw [if_pos he, ← he, Function.update_self, Option.map_some, hkind]
    · rw [if_neg he, Function.update_of_ne (Ne.symm he)]
  · simp only [Operation.debuts, hcontains, Bool.false_eq_true, if_false] at hfirst
    by_cases he : id' = id
    · rw [he] at hfirst
      simp at hfirst
    · exact hlate id' first (by simpa [Function.update_of_ne he] using hfirst)

/-- **A frame of a track that is no older than the origin** leaves the origin as it is, or fixes it. -/
theorem OnTime.cycle (h : OnTime kinds origin s) {f : TrackId × Frame} (hf : kinds f.1 ≠ none)
    (hold : ∀ o, origin = some o → o ≤ f.2.pts) :
    OnTime kinds (some (origin.getD f.2.pts)) (s.apply w (.cycle [f])) := by
  obtain ⟨hsound, rfl, rfl, debuts, haligned, hlate⟩ := h
  obtain ⟨htracks, hfixed⟩ := Publisher.cycle_keeps (w := w) haligned hsound [f]
  rw [Publisher.earliest_singleton hf] at hfixed
  refine ⟨(apply_sound w s (.cycle [f]) hsound).1, htracks, hfixed.trans ?_, _,
    apply_aligned w hsound haligned (.cycle [f]), fun id first hfirst => ⟨_, rfl, ?_⟩⟩
  · cases s.publisher.origin <;> rfl
  · rcases Debuts.take_cases (hfirst : debuts.take s.publisher.kind? f id = some first) with hd | rfl
    · obtain ⟨o, ho, hle⟩ := hlate id first hd
      rwa [ho]
    · cases ho : s.publisher.origin with
      | none => exact Nat.le_refl _
      | some o => exact hold o ho

/-- **While frames no older than the origin are fed, it stays.** -/
theorem OnTime.feeding {o : Nanos} : ∀ {frames : List (TrackId × Frame)} {s : Presentation}, OnTime kinds (some o) s →
    (∀ f ∈ frames, kinds f.1 ≠ none ∧ o ≤ f.2.pts) → OnTime kinds (some o) (s.run w (CommandLine.feeding frames))
  | [], _, h, _ => h
  | f :: frames, _, h, hf => by
    obtain ⟨⟨hk, hle⟩, hrest⟩ := List.forall_mem_cons.1 hf
    exact (h.cycle hk fun o' ho => Option.some.inj ho ▸ hle).feeding hrest

/-- **The first frame fixes the origin** of frames in presentation order. -/
theorem OnTime.feeding_first : ∀ {frames : List (TrackId × Frame)}, OnTime kinds none s →
    frames.Pairwise CommandLine.Precedes → (∀ f ∈ frames, kinds f.1 ≠ none) →
      OnTime kinds (frames.head?.map (·.2.pts)) (s.run w (CommandLine.feeding frames))
  | [], h, _, _ => h
  | first :: _, h, hordered, htracks => by
    obtain ⟨hfirst, hrest⟩ := List.forall_mem_cons.1 htracks
    exact (h.cycle hfirst nofun).feeding fun f hf =>
      ⟨hrest f hf, CommandLine.first_le hordered (List.mem_cons_of_mem _ hf)⟩

/-- **Every track counts from the origin** when its frames are no older. -/
theorem OnTime.zero? {o : Nanos} (h : OnTime kinds (some o) s) {id : TrackId} {kind : Kind} (hk : kinds id = some kind) :
    ∃ c, s.publisher.channels.find? id = some c ∧ c.kind = kind ∧ c.segmenter.assembly.clock.zero? = some o := by
  obtain ⟨-, rfl, hfixed, debuts, haligned, hlate⟩ := h
  unfold Publisher.kind? at hk
  obtain ⟨c, hc, hkind⟩ := Option.map_eq_some_iff.1 hk
  have hclock := haligned id c hc
  rw [hfixed] at hclock
  refine ⟨c, hc, hkind, ?_⟩
  rw [hclock.zero?]
  cases hd : debuts id with
  | none => rfl
  | some first =>
    obtain ⟨o', ho, hle⟩ := hlate id first hd
    cases ho
    exact congrArg some (if_pos hle)

/-- The tracks of a run are there before its first frame. -/
theorem onTime_registering (w : World) (settings : Settings) (audio : List AudioFrame) (video : List VideoFrame) :
    ∃ kinds, OnTime kinds none ((start settings).run w (CommandLine.registering audio video)) ∧
      ∀ f ∈ CommandLine.merge audio video, kinds f.1 = some f.2.kind := by
  -- an empty stream has no track
  let added (kinds : TrackId → Option Kind) (isEmpty : Bool) (id : TrackId) (kind : Kind) : TrackId → Option Kind :=
    if isEmpty then kinds else Function.update kinds id (some kind)
  have hadd : ∀ {kinds : TrackId → Option Kind} {s : Presentation} (isEmpty : Bool) (id : TrackId) (kind : Kind),
      OnTime kinds none s → kinds id = none →
        OnTime (added kinds isEmpty id kind) none (s.run w (if isEmpty then [] else [.addTrack id kind])) := by
    intro kinds s isEmpty id kind h hfree
    cases isEmpty with
    | true => exact h
    | false => exact h.addTrack hfree kind
  have hvideo := hadd video.isEmpty CommandLine.videoTrack .video (onTime_start settings) rfl
  have haudio := hadd audio.isEmpty CommandLine.audioTrack .audio hvideo (by cases video.isEmpty <;> rfl)
  refine ⟨_, by rw [CommandLine.registering, run, List.foldl_append]; exact haudio, fun f hf => ?_⟩
  rcases CommandLine.mem_merge.1 hf with ⟨a, ha, rfl⟩ | ⟨v, hv, rfl⟩
  · rw [List.isEmpty_eq_false_iff.2 (List.ne_nil_of_mem ha)]
    rfl
  · rw [List.isEmpty_eq_false_iff.2 (List.ne_nil_of_mem hv)]
    cases audio.isEmpty <;> rfl

end Presentation

namespace CommandLine

/-- **The frames of two streams are fed in presentation order.**  A run takes one cycle for each frame of the merge, which
has the whole frames of the ADTS stream, stamped by their numbers, and the pictures, all of them once and those of each
stream in their own order.  Those are the frames that the program makes of the ADTS stream, as long as their time stamps fit
64 bits: always in a stream of less than half a terabyte.  The time stamps never decrease, and audio goes before video as old.  So the first cycle fixes
the smallest time stamp of both streams as the origin, and from then on the track of every frame, whether it was fed yet or
not, counts from it, which is no later than the frame. -/
theorem fed_in_order (w : World) (settings : Settings) {data : Bytes} {audio : List AudioFrame} {video : List VideoFrame}
    (haudio : timedFrames data = .ok audio) (hvideo : video.Pairwise fun a b => a.pts ≤ b.pts) :
    let frames := merge audio video
    let fed (n : Nat) := (Presentation.start settings).run w (registering audio video ++ feeding (frames.take n))
    (∀ {m : Type → Type} [Monad m] [LawfulMonad m] (outlet : Outlet m) (p : Publisher),
      publish outlet audio video p = (do
        let p ← (registering audio video ++ feeding frames).foldlM (fun p op => op.run outlet p) p
        Prod.fst <$> p.shutdown outlet)) ∧
    (Adts.split data = .ok (audio.map (·.data)) ∧
      (∃ rate ∈ samplingRates, ∀ n (hn : n < audio.length), audio[n].pts = stamp rate n) ∧
      (audioFrames data = .ok audio ↔ ∀ f ∈ audio, f.pts - streamStart < UInt64.size) ∧
      (data.length < 2 ^ 39 → audioFrames data = .ok audio)) ∧
    frames.length = audio.length + video.length ∧
    (frames.filter (·.1 = audioTrack)).map (·.2) = audio.map .audio ∧
    (frames.filter (·.1 = videoTrack)).map (·.2) = video.map .video ∧
    frames.Pairwise Precedes ∧
    (fed 0).publisher.origin = none ∧
    ∀ n, 0 < n → (fed n).publisher.origin = (audio.map (·.pts) ++ video.map (·.pts)).min? ∧
      ∀ f ∈ frames, ∃ c o, (fed n).publisher.channels.find? f.1 = some c ∧ c.kind = f.2.kind ∧
        c.segmenter.assembly.clock.zero? = some o ∧ (fed n).publisher.origin = some o ∧ o ≤ f.2.pts := by
  intro frames fed
  have hordered : frames.Pairwise Precedes := merge_precedes (timedFrames_sorted haudio) hvideo
  have hlength : frames.length = audio.length + video.length := by
    simp [frames, merge, List.length_merge]
  obtain ⟨kinds, hstart, htracks⟩ := Presentation.onTime_registering w settings audio video
  obtain ⟨hsplit, hstamps⟩ := timedFrames_ok haudio
  have hfit := audioFrames_eq_iff haudio
  refine ⟨fun outlet p => publish_eq outlet audio video p,
    ⟨hsplit, hstamps, hfit, fun hshort => hfit.2 (timedFrames_fit haudio hshort)⟩, hlength, merge_audio audio video,
    merge_video audio video, hordered, ?_, ?_⟩
  · simpa [fed, feeding] using hstart.fixed
  · intro n hn
    have hfed : Presentation.OnTime kinds (frames.head?.map (·.2.pts)) (fed n) := by
      have htaken := hstart.feeding_first (w := w) (hordered.sublist (List.take_sublist n frames)) fun f hf => by
        rw [htracks f (List.mem_of_mem_take hf)]
        exact Option.some_ne_none _
      rw [List.head?_take, if_neg (Nat.pos_iff_ne_zero.1 hn)] at htaken
      rw [show fed n = _ from List.foldl_append]
      exact htaken
    refine ⟨hfed.fixed.trans (min?_pts hordered).symm, fun f hf => ?_⟩
    obtain ⟨first, rest, hfirst⟩ := List.exists_cons_of_ne_nil (List.ne_nil_of_mem hf)
    rw [hfirst] at hfed hordered
    obtain ⟨c, hc, hkind, hzero⟩ := hfed.zero? (htracks f hf)
    exact ⟨c, _, hc, hkind, hzero, hfed.fixed, first_le hordered (hfirst ▸ hf)⟩

/-- Two frames of audio at 48 kHz. -/
def shortStream : Bytes := [Adts.plainFrame, Adts.plainFrame].flatten

/-- Two pictures, the first as old as the first frame of audio. -/
def shortVideo : List VideoFrame := [⟨1000000000, 2, 2, [0, 0, 1, 0x65]⟩, ⟨1020000000, 2, 2, [0, 0, 1, 0x41]⟩]

/-- The frames of both streams, with the second picture before the second frame of audio. -/
theorem fed_in_order_shortStream :
    let audio : List AudioFrame :=
      [⟨1000000000, 48000, 2, 1024, Adts.plainFrame⟩, ⟨1021333333, 48000, 2, 1024, Adts.plainFrame⟩]
    let frames := merge audio shortVideo
    let fed (n : Nat) := (Presentation.start .default).run .obliging
      (registering audio shortVideo ++ feeding (frames.take n))
    timedFrames shortStream = .ok audio ∧ audioFrames shortStream = .ok audio ∧ (shortVideo.Pairwise fun a b => a.pts ≤ b.pts) ∧
      frames.map (fun f => (f.1, f.2.pts)) =
        [(audioTrack, 1000000000), (videoTrack, 1000000000), (videoTrack, 1020000000), (audioTrack, 1021333333)] ∧
      frames.Pairwise Precedes ∧
      ∀ n, 0 < n → (fed n).publisher.origin = some 1000000000 ∧
        ∀ id ∈ [audioTrack, videoTrack], ∃ c, (fed n).publisher.channels.find? id = some c ∧
          c.segmenter.assembly.clock.zero? = some 1000000000 := by
  intro audio frames fed
  have hframes : ∀ frame ∈ [Adts.plainFrame, Adts.plainFrame], Adts.IsFrame frame := by
    simp only [List.forall_mem_cons]
    exact ⟨⟨⟨2, 3, 2, 7, 9⟩, rfl, rfl⟩, ⟨⟨2, 3, 2, 7, 9⟩, rfl, rfl⟩, nofun⟩
  have hsplit : Adts.split shortStream = .ok [Adts.plainFrame, Adts.plainFrame] := by
    simpa [shortStream] using (Adts.split_frames hframes Adts.torn_nil).trans (Adts.answer_eq_ok.2 ⟨rfl, rfl⟩)
  have haudio : timedFrames shortStream = .ok audio := by
    unfold timedFrames
    rw [hsplit]
    rfl
  have hvideo : shortVideo.Pairwise fun a b => a.pts ≤ b.pts := by decide
  obtain ⟨-, ⟨-, -, -, hfed⟩, -, -, -, hordered, -, horigin⟩ := fed_in_order .obliging .default haudio hvideo
  have hmerge : frames.map (fun f => (f.1, f.2.pts)) =
      [(audioTrack, 1000000000), (videoTrack, 1000000000), (videoTrack, 1020000000), (audioTrack, 1021333333)] := by
    simp [frames, audio, shortVideo, merge, Frame.pts]
  refine ⟨haudio, hfed (by decide), hvideo, hmerge, hordered, fun n hn => ?_⟩
  obtain ⟨hfixed, hcounts⟩ := horigin n hn
  refine ⟨hfixed, fun id hid => ?_⟩
  obtain ⟨f, hf, rfl⟩ : ∃ f ∈ frames, f.1 = id := by
    obtain rfl | rfl : id = audioTrack ∨ id = videoTrack := by simpa using hid
    · exact ⟨(audioTrack, .audio audio[0]), mem_merge.2 (.inl ⟨_, List.mem_cons_self, rfl⟩), rfl⟩
    · exact ⟨(videoTrack, .video shortVideo[0]), mem_merge.2 (.inr ⟨_, List.mem_cons_self, rfl⟩), rfl⟩
  obtain ⟨c, o, hc, -, hzero, ho, -⟩ := hcounts f hf
  exact ⟨c, hc, hzero.trans (ho.symm.trans hfixed)⟩

end CommandLine
end Packager

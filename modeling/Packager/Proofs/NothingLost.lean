import Mathlib.Data.List.DropRight
import Packager.Proofs.SampleFlow
import Packager.Proofs.Session
/-!
# Proofs.NothingLost — the placed and open samples are the accepted frames

What a track keeps of its history (`kept`): before the timing is known only the last frames wait, one of an audio track
and the preroll and one more of a video track; from then on every frame counts, but that a video fragment opens with a
sync sample.  In a run without overflow the samples of the placed segments and then the open ones are exactly those
(`placed_then_open`): none is lost, none is repeated and none is out of order.
-/
namespace Packager

/-! ## What is kept of a history -/

/-- How many frames wait at most while the timing is not known. -/
def Kind.window : Kind → Nat
  | .audio => 1
  | .video => VideoStream.maxPreroll + 1

namespace Moment

def isConfigured : Moment → Bool
  | .configured => true
  | _ => false

def feed? : Moment → Option Feed
  | .taken frame _ => frame.sample?.map fun sample => .sample sample.1 sample.2
  | .configured => none
  | .finished => some .finish

/-- What counts of a history: nothing before the timing is known; then the frames that waited, and all that follows. -/
def fed (kind : Kind) (history : List Moment) : List Feed :=
  match history.dropWhile (!·.isConfigured) with
  | [] => []
  | _ :: since =>
    ((history.takeWhile (!·.isConfigured)).filterMap feed?).rtake kind.window ++ since.filterMap feed?

/-- The samples that a track keeps of its history. -/
def kept (kind : Kind) (history : List Moment) : List Bytes := Feed.kept false (fed kind history)

theorem fed_of_unconfigured (kind : Kind) {history : List Moment} (h : history.any isConfigured = false) :
    fed kind history = [] := by
  have hd : history.dropWhile (!·.isConfigured) = [] := by
    rw [List.dropWhile_eq_nil_iff]
    simpa using h
  unfold fed
  rw [hd]

/-- The moment at which the timing becomes known. -/
theorem fed_configured (kind : Kind) {history : List Moment} (h : history.any isConfigured = false) :
    fed kind (history ++ [.configured]) = (history.filterMap feed?).rtake kind.window := by
  have hall : ∀ m ∈ history, (!m.isConfigured) = true := by simpa using h
  unfold fed
  rw [List.dropWhile_append_of_pos hall, List.takeWhile_append_of_pos hall]
  simp [List.dropWhile, List.takeWhile, isConfigured]

theorem fed_append (kind : Kind) {history : List Moment} (h : history.any isConfigured = true) (more : List Moment) :
    fed kind (history ++ more) = fed kind history ++ more.filterMap feed? := by
  obtain ⟨m, rest, hd⟩ : ∃ m rest, history.dropWhile (!·.isConfigured) = m :: rest := by
    refine List.exists_cons_of_ne_nil fun hd => ?_
    rw [List.dropWhile_eq_nil_iff] at hd
    obtain ⟨m, hm, hc⟩ := List.any_eq_true.1 h
    have := hd m hm
    rw [hc] at this
    cases this
  have ht : ¬(history.takeWhile (!·.isConfigured)).length = history.length := by
    have hlen := congrArg List.length (List.takeWhile_append_dropWhile (p := (!·.isConfigured)) (l := history))
    rw [List.length_append, hd, List.length_cons] at hlen
    omega
  unfold fed
  rw [List.dropWhile_append, List.takeWhile_append, if_neg ht, hd]
  simp only [List.isEmpty_cons, Bool.false_eq_true, if_false, List.cons_append, List.filterMap_append,
    List.append_assoc]

end Moment

theorem rtake_rtake_concat {α : Type} (l : List α) (x : α) (n : Nat) : (l.rtake n ++ [x]).rtake n = (l ++ [x]).rtake n := by
  cases n with
  | zero => rw [List.rtake_zero, List.rtake_zero]
  | succ n =>
    rw [List.rtake_concat_succ, List.rtake_concat_succ]
    unfold List.rtake
    rw [List.length_drop, List.drop_drop]
    congr 2
    omega

theorem map_rtake {α β : Type} (f : α → β) (l : List α) (n : Nat) : (l.rtake n).map f = (l.map f).rtake n := by
  unfold List.rtake
  rw [List.map_drop, List.length_map]

theorem rtake_window {α : Type} (kind : Kind) (x : α) : [x].rtake kind.window = [x] := by
  have hpos : 1 ≤ kind.window := by cases kind <;> decide
  unfold List.rtake
  rw [List.length_singleton, Nat.sub_eq_zero_of_le hpos, List.drop_zero]

/-! ## The operations -/

namespace Segmenter

/-- The frames that wait to be appended, oldest first. -/
def waiting (s : Segmenter) : List Pending :=
  match s.stream with
  | .audio _ => s.assembly.pending.toList
  | .video v => VideoStream.queue s.assembly v

def fed (s : Segmenter) : List Feed := s.waiting.map Pending.feed

def opened (s : Segmenter) : List Bytes := s.assembly.fragment.datas

/-- Whether a segmenter counts as open: a video segmenter while its fragment has a sample, an audio segmenter as one
likes, since all its frames are sync samples. -/
structure Agrees (s : Segmenter) (isOpen : Bool) : Prop where
  audio : s.kind = .audio → ∀ p ∈ s.waiting, p.isSync = true
  video : s.kind = .video → isOpen = !s.assembly.fragment.isEmpty

/-- Audio frames are kept whether a fragment is open or not. -/
theorem kept_of_isSync (isOpen : Bool) : ∀ l : List Pending, (∀ p ∈ l, p.isSync = true) →
    Feed.kept isOpen (l.map Pending.feed) = l.map Pending.data
  | [], _ => rfl
  | p :: l, h => by
    have hp : p.isSync = true := h p List.mem_cons_self
    rw [List.map_cons, Pending.feed, Feed.kept, hp, Bool.or_true, if_pos rfl,
      kept_of_isSync true l fun q hq => h q (List.mem_cons_of_mem p hq)]
    rfl

theorem waiting_eq_nil {s : Segmenter} (hp : s.assembly.pending = none)
    (hv : ∀ v, s.stream = .video v → v.preroll = []) : s.waiting = [] := by
  obtain ⟨a, stream⟩ := s
  cases stream with
  | audio v =>
    show a.pending.toList = []
    rw [show a.pending = none from hp]
    rfl
  | video v =>
    show v.preroll ++ a.pending.toList = []
    rw [show a.pending = none from hp, hv v rfl]
    rfl

theorem agrees_of_waiting {s : Segmenter} {isOpen : Bool} (hw : s.waiting = [])
    (ho : s.kind = .video → isOpen = !s.assembly.fragment.isEmpty) : s.Agrees isOpen := by
  refine ⟨fun _ p hp => ?_, ho⟩
  rw [hw] at hp
  exact absurd hp List.not_mem_nil

/-- **Appending passes on all that waits**, and nothing waits afterwards. -/
theorem append_spec {s : Segmenter} {slot : Slot} {isOpen : Bool} (hc : s.assembly.configured = true)
    (ho : ¬(s.append slot).Overflows) (ha : s.Agrees isOpen) :
    Passes s.opened (s.append slot).made (s.append slot).state.opened (Feed.kept isOpen s.fed) ∧
    (s.append slot).state.waiting = [] ∧ (s.append slot).state.Agrees (Feed.opens isOpen s.fed) ∧
    (s.append slot).state.assembly.configured = true ∧ (s.append slot).state.kind = s.kind := by
  obtain ⟨a, stream⟩ := s
  cases stream with
  | audio v =>
    rw [append_audio v slot hc] at ho ⊢
    obtain ⟨g, next, phase, hst⟩ := AudioStream.append_moved a v slot
    have hp : (AudioStream.append a v slot).state.1.pending = none := by rw [hst]
    have hcfg : (AudioStream.append a v slot).state.1.configured = a.configured := by rw [hst]
    have hw := waiting_eq_nil (s := ⟨(AudioStream.append a v slot).state.1, .audio (AudioStream.append a v slot).state.2⟩)
      hp nofun
    refine ⟨?_, hw, agrees_of_waiting hw nofun, hcfg.trans hc, rfl⟩
    rw [fed, kept_of_isSync isOpen _ (ha.audio rfl)]
    exact AudioStream.passes_append ho
  | video v =>
    rw [append_video v slot hc] at ho ⊢
    have hs := VideoStream.appended_append (a := a) (v := v) ho
    obtain ⟨⟨g, next, phase, hst⟩, hr⟩ := VideoStream.append_moved a v slot
    have hp : (VideoStream.append a v slot).state.1.pending = none := by rw [hst]
    have hcfg : (VideoStream.append a v slot).state.1.configured = a.configured := by rw [hst]
    have hopen : isOpen = !a.fragment.isEmpty := ha.video rfl
    subst hopen
    have hw := waiting_eq_nil (s := ⟨(VideoStream.append a v slot).state.1, .video (VideoStream.append a v slot).state.2⟩)
      hp (by rintro w ⟨⟩; exact hr)
    exact ⟨hs.passes, hw, agrees_of_waiting hw fun _ => hs.opens.symm, hcfg.trans hc, rfl⟩

/-- **Appending without cutting** leaves all that waits open. -/
theorem absorb_spec {s : Segmenter} {isOpen : Bool} (ha : s.Agrees isOpen) :
    s.absorb.opened = s.opened ++ Feed.kept isOpen s.fed ∧ s.absorb.assembly.pending = none ∧
    (∀ v, s.absorb.stream = .video v → v.preroll = []) ∧
    s.absorb.assembly.configured = s.assembly.configured ∧ s.absorb.kind = s.kind := by
  obtain ⟨a, stream⟩ := s
  cases stream with
  | audio v =>
    obtain ⟨g, next, phase, hst⟩ := AudioStream.absorb_moved a
    refine ⟨?_, by rw [absorb, hst], nofun, by rw [absorb, hst], rfl⟩
    rw [fed, kept_of_isSync isOpen _ (ha.audio rfl)]
    show (AudioStream.absorb a).fragment.datas = a.fragment.datas ++ a.pending.toList.map Pending.data
    unfold AudioStream.absorb
    cases hp : a.pending with
    | none => exact (List.append_nil _).symm
    | some p => exact OpenFragment.datas_push _ _ _
  | video v =>
    obtain ⟨⟨g, next, phase, hst⟩, hr⟩ := VideoStream.absorb_moved a v
    have hopen : isOpen = !a.fragment.isEmpty := ha.video rfl
    subst hopen
    have hp : (VideoStream.absorb a v).1.pending = none := by rw [hst]
    have hc : (VideoStream.absorb a v).1.configured = a.configured := by rw [hst]
    refine ⟨VideoStream.datas_absorbAll _ _ _, hp, ?_, hc, rfl⟩
    rintro w ⟨⟩
    exact hr

/-- **Finishing passes on all that waits**, and leaves nothing open. -/
theorem finish_spec {s : Segmenter} {slot : Slot} {isOpen : Bool} (hs : slot.isEmpty = true)
    (ho : ¬(s.finish slot).Overflows) (ha : s.Agrees isOpen) :
    Passes s.opened (s.finish slot).made [] (Feed.kept isOpen s.fed) ∧ (s.finish slot).result.isOk = true ∧
    (s.finish slot).state.opened = [] ∧ (s.finish slot).state.waiting = [] ∧ (s.finish slot).state.Agrees false ∧
    (s.finish slot).state.assembly.configured = s.assembly.configured ∧ (s.finish slot).state.kind = s.kind := by
  rcases s.finish_cases slot with ⟨hn, -⟩ | ⟨-, hresult, hslot, phase, hstate⟩
  · rw [hs] at hn
    cases hn
  · have hmade := Outcome.made_congr hresult hslot
    unfold Outcome.Overflows at ho
    rw [hresult] at ho
    obtain ⟨hr, hp⟩ := Assembly.passes_close ho
    obtain ⟨hd, hpend, hv, hc, hk⟩ := absorb_spec ha
    obtain ⟨g, n, phase', hst, hg⟩ := s.absorb.assembly.close_state slot
    have hw : (s.finish slot).state.waiting = [] := by
      rw [hstate]
      exact waiting_eq_nil (by rw [hst]; exact hpend) hv
    have hempty : (s.finish slot).state.assembly.fragment.isEmpty = true := by
      rw [hstate, hst]
      exact hg
    have hopened : (s.finish slot).state.opened = [] := OpenFragment.datas_of_isEmpty hempty
    refine ⟨?_, by rw [hresult, hr]; rfl, hopened, hw, agrees_of_waiting hw (fun _ => by rw [hempty]; rfl), ?_, ?_⟩
    · rw [hmade]
      have hgd : (s.absorb.assembly.close slot).state.fragment.datas = [] := by
        rw [hst]
        exact OpenFragment.datas_of_isEmpty hg
      rw [hgd] at hp
      have hboth := (Passes.of_eq hd).trans hp
      rw [List.append_nil] at hboth
      exact hboth
    · rw [hstate, hst]
      exact hc
    · rw [hstate]
      exact hk

/-- The preroll after a frame was taken is the end of what waited before it. -/
theorem preroll_eq_rtake {a : Assembly} {v w : VideoStream} (hl : a.pending = none → waiting ⟨a, .video v⟩ = [])
    (hw : a.configured = true → waiting ⟨a, .video v⟩ = [])
    (hr : w.preroll = match a.pending with
      | some q =>
        if a.configured then v.preroll
        else v.preroll.drop (v.preroll.length + 1 - VideoStream.maxPreroll) ++ [q]
      | none => v.preroll) :
    w.preroll = (waiting ⟨a, .video v⟩).rtake VideoStream.maxPreroll := by
  have hq : waiting ⟨a, .video v⟩ = v.preroll ++ a.pending.toList := rfl
  cases hp : a.pending with
  | none =>
    have hnil := hl hp
    rw [hp] at hr
    rw [hnil, List.rtake_nil, hr]
    exact (List.append_eq_nil_iff.1 (hq ▸ hnil)).1
  | some q =>
    rw [hp] at hr hq
    cases hc : a.configured with
    | true =>
      have hnil := hw hc
      rw [hq] at hnil
      exact absurd (List.append_eq_nil_iff.1 hnil).2 nofun
    | false =>
      rw [hc] at hr
      rw [hr, hq]
      unfold List.rtake
      rw [List.length_append, Option.toList_some, List.length_singleton, List.drop_append_of_le_length]
      · rfl
      · unfold VideoStream.maxPreroll
        omega

/-- What taking a frame leaves alone, and that nothing waits behind a place that is free. -/
structure Awaits (s g : Segmenter) : Prop where
  opened : g.opened = s.opened
  fragment : g.assembly.fragment = s.assembly.fragment
  configured : g.assembly.configured = s.assembly.configured
  kind : g.kind = s.kind
  lined : g.assembly.pending = none → g.waiting = []

/-- **Taking a frame** puts its sample behind what waits; while the timing is not known only the window is kept. -/
theorem manage_spec {s g : Segmenter} {frame : Frame} {isNew : Bool} (h : s.manage frame = .ok (isNew, g))
    (hl : s.assembly.pending = none → s.waiting = []) (hw : s.assembly.configured = true → s.waiting = []) :
    s.Awaits g ∧
    ((frame.sample? = none ∧ g.waiting = s.waiting) ∨
     ∃ p, frame.sample? = some (p.data, p.isSync) ∧ (s.kind = .audio → p.isSync = true) ∧
       g.waiting = (s.waiting ++ [p]).rtake s.kind.window) := by
  rcases manage_cases h with ⟨a, v, f, b, w, rfl, rfl, hm, rfl⟩ | ⟨a, v, f, b, w, rfl, rfl, hm, rfl⟩
  · obtain ⟨data, phase, hd, rfl, -⟩ := AudioStream.manage_ok hm
    refine ⟨⟨rfl, rfl, rfl, rfl, nofun⟩,
      .inr ⟨⟨(a.clock.accept f.pts).1.expected, data, true⟩, hd, fun _ => rfl, ?_⟩⟩
    show _ = (_ ++ [_]).rtake (0 + 1)
    rw [List.rtake_concat_succ, List.rtake_zero]
    rfl
  · rcases VideoStream.manage_ok hm with ⟨hd, rfl, hr⟩ | ⟨p, clock, phase, hd, rfl, hr⟩
    · have hsame : waiting ⟨b, .video w⟩ = waiting ⟨b, .video v⟩ := by
        show w.preroll ++ _ = v.preroll ++ _
        rw [hr]
      refine ⟨⟨rfl, rfl, rfl, rfl, fun hp => ?_⟩, .inl ⟨hd, hsame⟩⟩
      rw [hsame]
      exact hl hp
    · refine ⟨⟨rfl, rfl, rfl, rfl, nofun⟩, .inr ⟨p, hd, nofun, ?_⟩⟩
      show w.preroll ++ [p] = (_ ++ [p]).rtake (VideoStream.maxPreroll + 1)
      rw [List.rtake_concat_succ, preroll_eq_rtake hl hw hr]

end Segmenter

/-! ## Runs -/

namespace Session

/-- What the caller promises: one frame after the other, appended once the timing is known, which stays so; tracks are
finished only then and into a free slot; the slot never proves too small, and nothing is dropped on purpose. -/
def Lossless (s : Session) : Call → Prop
  | .manage _ => s.due = .manage
  | .configure => s.due = .configure ∧ (s.assembly.configured = true → s.segmenter.configure.isOk = true)
  | .append => s.due = .append ∧ ¬(s.segmenter.append s.slot).Overflows
  | .finish => s.assembly.configured = true ∧ s.slot.isEmpty = true ∧ ¬(s.segmenter.finish s.slot).Overflows
  | .flush => False
  | .describe _ | .setOrigin _ | .setBitrate _ | .clear => True

instance (s : Session) : ∀ call, Decidable (s.Lossless call)
  | .manage _ => inferInstanceAs (Decidable (_ = _))
  | .configure => inferInstanceAs (Decidable (_ ∧ (_ → _)))
  | .append => inferInstanceAs (Decidable (_ ∧ ¬_))
  | .finish => inferInstanceAs (Decidable (_ ∧ _ ∧ ¬_))
  | .flush => inferInstanceAs (Decidable False)
  | .describe _ | .setOrigin _ | .setBitrate _ | .clear => inferInstanceAs (Decidable True)

/-- The invariant of a lossless session: what was placed, is open and waits is what counts of the history. -/
structure Flowing (kind : Kind) (s : Session) : Prop where
  ofKind : s.segmenter.kind = kind
  known : s.history.any Moment.isConfigured = s.assembly.configured
  due : s.due = .append → s.assembly.configured = true
  lined : s.assembly.pending = none → s.segmenter.waiting = []
  early : s.assembly.configured = false →
    s.placed = [] ∧ s.assembly.fragment.isEmpty = true ∧ s.segmenter.Agrees false ∧
    s.segmenter.fed = (s.history.filterMap Moment.feed?).rtake kind.window
  late : s.assembly.configured = true →
    (s.due = .manage → s.segmenter.waiting = []) ∧ ∃ isOpen, s.segmenter.Agrees isOpen ∧
    Passes [] s.placed (s.segmenter.opened ++ Feed.kept isOpen s.segmenter.fed) (Moment.kept kind s.history) ∧
    Feed.opens isOpen s.segmenter.fed = Feed.opens false (Moment.fed kind s.history)

theorem flowing_start (kind : Kind) (plan : SegmenterPlan) (capacity : Nat) :
    Flowing kind (start kind plan capacity) := by
  cases kind with
  | audio => exact ⟨rfl, rfl, nofun, fun _ => rfl, fun _ => ⟨rfl, rfl, ⟨nofun, nofun⟩, (List.rtake_nil _).symm⟩, nofun⟩
  | video => exact ⟨rfl, rfl, nofun, fun _ => rfl, fun _ => ⟨rfl, rfl, ⟨nofun, fun _ => rfl⟩, (List.rtake_nil _).symm⟩, nofun⟩

theorem flowing_relabelled {kind : Kind} {s : Session} {g : Segmenter} (h : Flowing kind s)
    (hg : s.segmenter.Relabelled g) : Flowing kind { s with segmenter := g } := by
  obtain ⟨zero, metadata, bitrate, described, rfl⟩ := hg
  refine ⟨h.ofKind, h.known, h.due, h.lined, fun hc => ?_, fun hc => ?_⟩
  · obtain ⟨hp, he, ha, hf⟩ := h.early hc
    exact ⟨hp, he, ⟨ha.audio, ha.video⟩, hf⟩
  · obtain ⟨hw, isOpen, ha, hp⟩ := h.late hc
    exact ⟨hw, isOpen, ⟨ha.audio, ha.video⟩, hp⟩

/-- A frame that makes no sample. -/
theorem flowing_skipped {kind : Kind} {s : Session} {g : Segmenter} (h : Flowing kind s) (hg : s.segmenter.Awaits g)
    (hwait : g.waiting = s.segmenter.waiting) : Flowing kind { s with segmenter := g, due := .configure } := by
  have hfed : g.fed = s.segmenter.fed := by rw [Segmenter.fed, hwait, Segmenter.fed]
  have hagrees : ∀ isOpen, s.segmenter.Agrees isOpen → g.Agrees isOpen := fun isOpen ha =>
    ⟨by rw [hg.kind, hwait]; exact ha.audio, by rw [hg.kind, hg.fragment]; exact ha.video⟩
  refine ⟨hg.kind.trans h.ofKind, h.known.trans hg.configured.symm, nofun, hg.lined, fun hc => ?_,
    fun hc => ⟨nofun, ?_⟩⟩
  · obtain ⟨hplaced, he, ha, hwin⟩ := h.early (hg.configured.symm.trans hc)
    exact ⟨hplaced, (congrArg OpenFragment.isEmpty hg.fragment).trans he, hagrees _ ha, hfed.trans hwin⟩
  · obtain ⟨-, isOpen, ha, hpass, hopens⟩ := h.late (hg.configured.symm.trans hc)
    refine ⟨isOpen, hagrees _ ha, ?_, ?_⟩
    · show Passes [] s.placed (g.opened ++ Feed.kept isOpen g.fed) _
      rw [hg.opened, hfed]
      exact hpass
    · show Feed.opens isOpen g.fed = _
      rw [hfed]
      exact hopens

/-- A frame whose sample waits behind the others; once the timing is known, there are no others. -/
theorem flowing_taken {kind : Kind} {s : Session} {g : Segmenter} {frame : Frame} {p : Pending} (h : Flowing kind s)
    (hdue : s.due = .manage) (hg : s.segmenter.Awaits g) (hp : frame.sample? = some (p.data, p.isSync))
    (hsync : s.segmenter.kind = .audio → p.isSync = true)
    (hwait : g.waiting = (s.segmenter.waiting ++ [p]).rtake s.segmenter.kind.window) :
    Flowing kind { s with
      segmenter := g, due := .configure, history := s.history ++ [.taken frame g.assembly.clock] } := by
  have hfeed : [Moment.taken frame g.assembly.clock].filterMap Moment.feed? = [p.feed] := by
    simp [Moment.feed?, hp, Pending.feed]
  have hfed : g.fed = (s.segmenter.fed ++ [p.feed]).rtake s.segmenter.kind.window := by
    rw [Segmenter.fed, hwait, Segmenter.fed, map_rtake, List.map_append]
    rfl
  have hagrees : ∀ isOpen, s.segmenter.Agrees isOpen → g.Agrees isOpen := by
    refine fun isOpen ha => ⟨fun haudio q hq => ?_, by rw [hg.kind, hg.fragment]; exact ha.video⟩
    rw [hg.kind] at haudio
    rw [hwait] at hq
    rcases List.mem_append.1 (List.mem_of_mem_drop hq) with hq | hq
    · exact ha.audio haudio q hq
    · rw [List.mem_singleton.1 hq]
      exact hsync haudio
  refine ⟨hg.kind.trans h.ofKind, ?_, nofun, hg.lined, fun hc => ?_, fun hc => ⟨nofun, ?_⟩⟩
  · rw [List.any_append, h.known]
    exact (Bool.or_false _).trans hg.configured.symm
  · obtain ⟨hplaced, he, ha, hwin⟩ := h.early (hg.configured.symm.trans hc)
    refine ⟨hplaced, (congrArg OpenFragment.isEmpty hg.fragment).trans he, hagrees _ ha, ?_⟩
    show g.fed = _
    rw [hfed, hwin, h.ofKind, rtake_rtake_concat, List.filterMap_append, hfeed]
  · have hcs : s.assembly.configured = true := hg.configured.symm.trans hc
    obtain ⟨hnil, isOpen, ha, hpass, hopens⟩ := h.late hcs
    have hold : s.segmenter.fed = [] := by
      rw [Segmenter.fed, hnil hdue]
      rfl
    have hnew : g.fed = [p.feed] := by
      rw [hfed, hold, List.nil_append, rtake_window]
    rw [hold] at hpass hopens
    refine ⟨isOpen, hagrees _ ha, ?_, ?_⟩
    · show Passes [] s.placed (g.opened ++ Feed.kept isOpen g.fed) (Moment.kept kind (s.history ++ _))
      rw [hg.opened, hnew, Moment.kept, Moment.fed_append kind (h.known.trans hcs), hfeed, Feed.kept_append, ← hopens]
      rw [Feed.kept, List.append_nil] at hpass
      exact hpass.keep _
    · show Feed.opens isOpen g.fed = Feed.opens false (Moment.fed kind (s.history ++ _))
      rw [hnew, Moment.fed_append kind (h.known.trans hcs), hfeed, Feed.opens_append, ← hopens]
      rfl

theorem flowing_manage {kind : Kind} {s : Session} {frame : Frame} (h : Flowing kind s)
    (hr : s.Lossless (.manage frame)) : Flowing kind (s.apply (.manage frame)) := by
  have hdue : s.due = .manage := hr
  cases hm : s.segmenter.manage frame with
  | error e =>
    rw [apply_manage_error hm]
    exact h
  | ok r =>
    obtain ⟨isNew, g⟩ := r
    rw [apply_manage_ok hm]
    have hw : s.segmenter.assembly.configured = true → s.segmenter.waiting = [] := fun hc => (h.late hc).1 hdue
    obtain ⟨hg, ⟨hn, hwait⟩ | ⟨p, hp, hsync, hwait⟩⟩ := Segmenter.manage_spec hm h.lined hw
    · rw [hn, if_neg nofun, List.append_nil]
      exact flowing_skipped h hg hwait
    · rw [hp, Option.isSome_some, if_pos rfl]
      exact flowing_taken h hdue hg hp hsync hwait

theorem flowing_configure {kind : Kind} {s : Session} (h : Flowing kind s) (hr : s.Lossless .configure) :
    Flowing kind (s.apply .configure) := by
  obtain ⟨hdue, hok⟩ := hr
  cases hconf : s.segmenter.configure with
  | error lack =>
    rw [apply_configure_error hconf]
    have hc : s.assembly.configured = false := by
      cases hc : s.assembly.configured with
      | false => rfl
      | true =>
        have := hok hc
        rw [hconf] at this
        cases this
    exact ⟨h.ofKind, h.known, nofun, h.lined, h.early, fun hc' => by rw [show s.assembly.configured = true from hc'] at hc; cases hc⟩
  | ok g =>
    rw [apply_configure_ok hconf]
    obtain ⟨ticks, phase, rfl⟩ := Segmenter.configure_state hconf
    cases hc : s.assembly.configured with
    | true =>
      obtain ⟨hw, isOpen, ha, hp, hopens⟩ := h.late hc
      rw [if_pos rfl, List.append_nil]
      exact ⟨h.ofKind, h.known.trans hc, fun _ => rfl, h.lined, nofun,
        fun _ => ⟨nofun, isOpen, ⟨ha.audio, ha.video⟩, hp, hopens⟩⟩
    | false =>
      -- all that counts so far is what waits
      obtain ⟨hp, he, ha, hf⟩ := h.early hc
      have hany := h.known.trans hc
      have hkept : Moment.fed kind (s.history ++ [.configured]) = s.segmenter.fed := by
        rw [Moment.fed_configured kind hany, hf]
      rw [if_neg nofun]
      refine ⟨h.ofKind, ?_, fun _ => rfl, h.lined, nofun, fun _ => ⟨nofun, false, ⟨ha.audio, ha.video⟩, ?_, ?_⟩⟩
      · rw [List.any_append, hany]
        rfl
      · show Passes [] s.placed (s.segmenter.opened ++ Feed.kept false s.segmenter.fed) _
        rw [hp, Moment.kept, hkept]
        refine .of_eq ?_
        rw [show s.segmenter.opened = [] from OpenFragment.datas_of_isEmpty he]
      · rw [hkept]
        rfl

theorem flowing_append {kind : Kind} {s : Session} (h : Flowing kind s) (hr : s.Lossless .append) :
    Flowing kind (s.apply .append) := by
  obtain ⟨hdue, hov⟩ := hr
  have hc := h.due hdue
  obtain ⟨-, isOpen, ha, hp, hopens⟩ := h.late hc
  obtain ⟨hpass, hw, ha', hc', hk⟩ := Segmenter.append_spec hc hov ha
  have hfed : (s.segmenter.append s.slot).state.fed = [] := by rw [Segmenter.fed, hw]; rfl
  refine ⟨hk.trans h.ofKind, h.known.trans (hc.trans hc'.symm), nofun, fun _ => hw, fun hn => ?_, fun _ => ?_⟩
  · rw [show (s.apply .append).assembly.configured = true from hc'] at hn
    cases hn
  · refine ⟨fun _ => hw, _, ha', ?_, ?_⟩
    · show Passes [] (s.placed ++ _) ((s.segmenter.append s.slot).state.opened ++
        Feed.kept _ (s.segmenter.append s.slot).state.fed) _
      rw [hfed, Feed.kept, List.append_nil]
      exact hp.chain hpass
    · show Feed.opens _ (s.segmenter.append s.slot).state.fed = _
      rw [hfed]
      exact hopens

theorem flowing_finish {kind : Kind} {s : Session} (h : Flowing kind s) (hr : s.Lossless .finish) :
    Flowing kind (s.apply .finish) := by
  obtain ⟨hc, hs, hov⟩ := hr
  obtain ⟨-, isOpen, ha, hp, hopens⟩ := h.late hc
  obtain ⟨hpass, hok, hopened, hw, ha', hc', hk⟩ := Segmenter.finish_spec hs hov ha
  have hfed : (s.segmenter.finish s.slot).state.fed = [] := by rw [Segmenter.fed, hw]; rfl
  have hany := h.known.trans hc
  have hhist : (s.apply .finish).history = s.history ++ [.finished] := by
    rw [apply]
    simp only [hok, if_true]
  have hfedh : Moment.fed kind (s.apply .finish).history = Moment.fed kind s.history ++ [.finish] := by
    rw [hhist, Moment.fed_append kind hany]
    rfl
  refine ⟨hk.trans h.ofKind, ?_, fun _ => hc'.trans hc, fun _ => hw, fun hn => ?_, fun _ => ?_⟩
  · rw [hhist, List.any_append, hany, Bool.true_or]
    exact (hc'.trans hc).symm
  · rw [show (s.apply .finish).assembly.configured = true from hc'.trans hc] at hn
    cases hn
  · refine ⟨fun _ => hw, false, ha', ?_, ?_⟩
    · show Passes [] (s.placed ++ _) ((s.segmenter.finish s.slot).state.opened ++
        Feed.kept _ (s.segmenter.finish s.slot).state.fed) _
      rw [Moment.kept, hfedh, hfed, hopened, Feed.kept_append, Feed.kept, Feed.kept, Feed.kept, List.append_nil, List.append_nil]
      exact hp.chain hpass
    · show Feed.opens _ (s.segmenter.finish s.slot).state.fed = _
      rw [hfedh, hfed, Feed.opens_append]
      rfl

theorem flowing_apply (kind : Kind) (s : Session) (call : Call) (h : Flowing kind s) (hr : s.Lossless call) :
    Flowing kind (s.apply call) := by
  cases call with
  | manage frame => exact flowing_manage h hr
  | configure => exact flowing_configure h hr
  | describe header => exact flowing_relabelled h (s.segmenter.relabelled_describe header)
  | append => exact flowing_append h hr
  | finish => exact flowing_finish h hr
  | flush => exact hr.elim
  | setOrigin origin => exact flowing_relabelled h (s.segmenter.relabelled_setOrigin origin)
  | setBitrate bitrate => exact flowing_relabelled h (s.segmenter.relabelled_setBitrate bitrate)
  | clear => exact ⟨h.ofKind, h.known, h.due, h.lined, h.early, h.late⟩

/-- **Nothing is lost, repeated or put out of order.**  The samples of the placed segments and then the open ones are
the samples that the track keeps of its history; while a frame is under way, they are so far. -/
theorem placed_then_open (kind : Kind) (plan : SegmenterPlan) (capacity : Nat) (calls : List Call)
    (h : Follows Lossless (start kind plan capacity) calls) :
    let s := (start kind plan capacity).run calls
    ∃ fs : List Fragment, List.Forall₂ Slot.Holds s.placed fs ∧
      fs.flatMap Fragment.datas ++ s.segmenter.opened <+: Moment.kept kind s.history ∧
      (s.due = .manage → fs.flatMap Fragment.datas ++ s.segmenter.opened = Moment.kept kind s.history) := by
  intro s
  have hinv : Flowing kind s := run_invariant (flowing_apply kind) calls _ h (flowing_start kind plan capacity)
  cases hc : s.assembly.configured with
  | false =>
    obtain ⟨hp, he, -⟩ := hinv.early hc
    have hkept : Moment.kept kind s.history = [] := by
      rw [Moment.kept, Moment.fed_of_unconfigured kind (hinv.known.trans hc)]
      rfl
    have hopened : s.segmenter.opened = [] := OpenFragment.datas_of_isEmpty he
    rw [hp, hkept, hopened]
    exact ⟨[], .nil, List.prefix_refl _, fun _ => rfl⟩
  | true =>
    obtain ⟨hw, isOpen, -, ⟨fs, hf, he⟩, -⟩ := hinv.late hc
    rw [List.nil_append, ← List.append_assoc] at he
    refine ⟨fs, hf, ⟨_, he⟩, fun hdue => ?_⟩
    rw [Segmenter.fed, hw hdue, List.map_nil, Feed.kept, List.append_nil] at he
    exact he

/-- A picture with its number, an IDR picture with parameter sets or another without. -/
def picture (number : UInt8) (idr : Bool) : Frame :=
  .video ⟨1000000000 + 400000000 * number.toNat, 2, 2,
    if idr then [0, 0, 1, 0x67, 66, 0, 30, 0, 0, 1, 0x68, 9, 0, 0, 1, 0x65, number] else [0, 0, 1, 0x41, number]⟩

/-- The timing becomes known at the second of seven pictures; the fifth opens a new segment, and the track is finished
while the sixth waits. -/
def finishedMidway : List Call :=
  [.manage (picture 0 false), .configure, .manage (picture 1 true), .configure, .append,
    .manage (picture 2 false), .configure, .append, .manage (picture 3 false), .configure, .append,
    .manage (picture 4 true), .configure, .append, .clear, .manage (picture 5 false), .configure, .finish, .append,
    .clear, .manage (picture 6 false), .configure, .append, .manage (picture 7 true), .configure, .append]

def secondsPlan : SegmenterPlan := ⟨1, 1, 1000, 4, 0⟩

theorem placed_then_open_finishedMidway : Follows Lossless (start .video secondsPlan 4096) finishedMidway ∧
    let s := (start .video secondsPlan 4096).run finishedMidway
    ∃ fs : List Fragment, List.Forall₂ Slot.Holds s.placed fs ∧
      fs.flatMap Fragment.datas ++ s.segmenter.opened <+: Moment.kept .video s.history ∧
      (s.due = .manage → fs.flatMap Fragment.datas ++ s.segmenter.opened = Moment.kept .video s.history) := by
  have h : Follows Lossless (start .video secondsPlan 4096) finishedMidway := by decide +kernel
  exact ⟨h, placed_then_open .video secondsPlan 4096 finishedMidway h⟩

/-- The pictures before the first IDR picture and between the finish and the next one are left out. -/
example : Moment.kept .video ((start .video secondsPlan 4096).run finishedMidway).history =
    ([1, 2, 3, 4, 5, 7] : List UInt8).map fun n => [0, 0, 0, 2, if n ∈ [1, 4, 7] then 0x65 else 0x41, n] := by
  decide +kernel

end Session
end Packager

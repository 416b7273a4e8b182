import Mathlib.Algebra.Ring.Nat
import Packager.Proofs.Session
/-!
# Proofs.AudioSession — an audio track that takes one frame after the other

In the documented order a session of an audio track is between two frames, or a frame waits to be configured and appended.
An `AudioInvariant` says what holds in either state, with what the operations keep of it; every call in that order keeps it
then (`obeys_apply`).
-/
namespace Packager

/-- What holds of an audio track between two frames, and while a frame waits.  Names, origin and phase do not count, nor do
the moments at which no frame is taken; `admits` says which frames the caller may bring. -/
structure AudioInvariant (admits : Assembly → AudioFrame → Prop) where
  between : List Moment → List Slot → Assembly → AudioStream → Prop
  waiting : List Moment → List Slot → Assembly → AudioStream → Prop
  pending : ∀ {history placed a v}, between history placed a v → a.pending = none
  manage : ∀ {history placed a b v w f isNew}, between history placed a v → admits a f →
    AudioStream.manage a v f = .ok (isNew, b, w) → waiting (history ++ [.taken (.audio f) b.clock]) placed b w
  configure : ∀ {history placed a v} ticks phase, waiting history placed a v → waiting history placed
    { a with clock := { a.clock with frameTicks := ticks }, configured := true, phase := phase } v
  append : ∀ {history placed a v} slot, waiting history placed a v → 0 < a.clock.frameTicks →
    a.clock.frameTicks ≤ OpenFragment.longest → between history (placed ++ (AudioStream.append a v slot).made)
      (AudioStream.append a v slot).state.1 (AudioStream.append a v slot).state.2
  close : ∀ {history placed a v} slot, between history placed a v →
    between history (placed ++ (a.close slot).made) (a.close slot).state v
  rephase : ∀ {history placed a v} phase, between history placed a v → between history placed { a with phase := phase } v
  relabel : ∀ {history placed a v} zero metadata bitrate described, between history placed a v →
    between history placed { a with
      clock := { a.clock with origin := zero }, metadata := metadata, bitrate := bitrate, described := described } v
  relabelWaiting : ∀ {history placed a v} zero metadata bitrate described, waiting history placed a v →
    waiting history placed { a with
      clock := { a.clock with origin := zero }, metadata := metadata, bitrate := bitrate, described := described } v
  finished : ∀ {history placed a v}, between history placed a v → between (history ++ [.finished]) placed a v
  configured : ∀ {history placed a v}, waiting history placed a v → waiting (history ++ [.configured]) placed a v

namespace Session

/-- What the caller of an audio session promises: one frame after the other, each configured and appended; tracks are
finished or flushed between two frames. -/
def AudioInOrder (s : Session) : Call → Prop
  | .manage _ | .finish | .flush => s.due = .manage
  | .configure =>
    s.due = .configure ∧
    match s.segmenter.configure with
    | .ok g => g.assembly.clock.frameTicks < 2 ^ 32
    | .error _ => False
  | .append => s.due = .append
  | .describe _ | .setOrigin _ | .setBitrate _ | .clear => True

instance (s : Session) : ∀ call, Decidable (s.AudioInOrder call)
  | .manage _ | .finish | .flush | .append => inferInstanceAs (Decidable (_ = _))
  | .configure =>
    match h : s.segmenter.configure with
    | .ok g => decidable_of_iff (s.due = .configure ∧ g.assembly.clock.frameTicks < 2 ^ 32) (by rw [AudioInOrder, h])
    | .error _ => decidable_of_iff False (by simp [AudioInOrder, h])
  | .describe _ | .setOrigin _ | .setBitrate _ | .clear => inferInstanceAs (Decidable True)

variable {admits : Assembly → AudioFrame → Prop} {inv : AudioInvariant admits} {s : Session}

/-- Whether an audio session is in the state of an invariant that its next call asks for. -/
def Obeys (inv : AudioInvariant admits) (s : Session) : Prop :=
  ∃ a v, s.segmenter = ⟨a, .audio v⟩ ∧
    match s.due with
    | .manage => inv.between s.history s.placed a v
    | .configure => inv.waiting s.history s.placed a v
    | .append => inv.waiting s.history s.placed a v ∧ a.configured = true ∧ 0 < a.clock.frameTicks ∧
        a.clock.frameTicks ≤ OpenFragment.longest

theorem obeys_relabelled {g : Segmenter} (h : s.Obeys inv) (hg : s.segmenter.Relabelled g) :
    Obeys inv { s with segmenter := g } := by
  obtain ⟨a, v, hs, hd⟩ := h
  obtain ⟨zero, metadata, bitrate, described, rfl⟩ := hg
  rw [hs]
  refine ⟨_, v, rfl, ?_⟩
  cases hdue : s.due <;> rw [hdue] at hd
  · exact inv.relabel zero metadata bitrate described hd
  · exact inv.relabelWaiting zero metadata bitrate described hd
  · exact ⟨inv.relabelWaiting zero metadata bitrate described hd.1, hd.2⟩

theorem obeys_manage {frame : Frame} (h : s.Obeys inv) (hdue : s.due = .manage)
    (hadmits : ∀ f, frame = .audio f → frame.sample?.isSome = true → admits s.assembly f) :
    (s.apply (.manage frame)).Obeys inv := by
  obtain ⟨a, v, hs, hd⟩ := h
  rw [hdue] at hd
  have refused : ∀ e, s.segmenter.manage frame = .error e → (s.apply (.manage frame)).Obeys inv := by
    intro e he
    rw [apply_manage_error he]
    exact ⟨a, v, hs, by rw [hdue]; exact hd⟩
  cases frame with
  | video f => exact refused _ (by rw [hs]; rfl)
  | audio f =>
    have he := Segmenter.manage_audio a v f
    rw [← hs] at he
    cases hm : AudioStream.manage a v f with
    | error e => exact refused e (by rw [he, hm]; rfl)
    | ok r =>
      obtain ⟨isNew, b, w⟩ := r
      rw [hm] at he
      obtain ⟨data, _, hdata, -⟩ := AudioStream.manage_ok hm
      have hsample : (Frame.audio f).sample?.isSome = true := by
        rw [hdata]
        rfl
      have hf := hadmits f rfl hsample
      rw [assembly, hs] at hf
      rw [apply_manage_ok he, if_pos hsample]
      exact ⟨b, w, rfl, inv.manage hd hf hm⟩

theorem obeys_configure (h : s.Obeys inv) (hr : s.AudioInOrder .configure) : (s.apply .configure).Obeys inv := by
  obtain ⟨a, v, hs, hd⟩ := h
  obtain ⟨hdue, hok⟩ := hr
  rw [hdue] at hd
  have he := Segmenter.configure_audio a v
  rw [← hs] at he
  cases hc : AudioStream.configure a v with
  | error lack =>
    rw [he, hc] at hok
    exact hok.elim
  | ok b =>
    rw [hc] at he
    rw [he] at hok
    rw [apply_configure_ok he]
    obtain ⟨ticks, hpos, rfl⟩ := AudioStream.configure_ok hc
    refine ⟨_, v, rfl, ?_, rfl, hpos, Nat.le_sub_one_of_lt hok⟩
    have hw := inv.configure ticks (a.configure ticks).phase hd
    dsimp only
    split
    · rw [List.append_nil]
      exact hw
    · exact inv.configured hw

theorem obeys_append (h : s.Obeys inv) (hdue : s.due = .append) : (s.apply .append).Obeys inv := by
  obtain ⟨a, v, hs, hd⟩ := h
  rw [hdue] at hd
  obtain ⟨hw, hc, hpos, hfit⟩ := hd
  have he := Segmenter.append_audio v s.slot hc
  rw [← hs] at he
  refine ⟨_, _, by rw [apply, after, he], ?_⟩
  rw [apply, after, he]
  exact inv.append s.slot hw hpos hfit

theorem obeys_finish (h : s.Obeys inv) (hdue : s.due = .manage) : (s.apply .finish).Obeys inv := by
  obtain ⟨a, v, hs, hd⟩ := h
  rw [hdue] at hd
  -- nothing waits, so all that is left to do is to close
  have habsorb : s.segmenter.absorb = s.segmenter := by
    rw [hs, Segmenter.absorb]
    simp only [AudioStream.absorb, inv.pending hd]
  rcases s.segmenter.finish_cases s.slot with ⟨-, he⟩ | ⟨-, hresult, hslot, phase, hstate⟩
  · rw [apply, after, he]
    refine ⟨a, v, hs, ?_⟩
    simpa [hdue, Outcome.made, Except.isOk, Except.toBool] using hd
  · rw [habsorb, hs] at hresult hslot hstate
    have hmade := Outcome.made_congr hresult hslot
    have hclosed := inv.close s.slot hd
    refine ⟨{ (a.close s.slot).state with phase := phase }, v, ?_, ?_⟩
    · rw [apply, after, hs, hstate]
    · have hdue' : (s.apply .finish).due = .manage := hdue
      rw [hdue']
      show inv.between (s.history ++ _) (s.placed ++ _) _ v
      rw [hs, hmade]
      have hphase := inv.rephase phase hclosed
      split
      · exact inv.finished hphase
      · rw [List.append_nil]
        exact hphase

/-- **Every call in order keeps the invariant**, but for a flush. -/
theorem obeys_apply {call : Call} (h : s.Obeys inv) (hr : s.AudioInOrder call) (hflush : call ≠ .flush)
    (hadmits : ∀ f, call = .manage (.audio f) → (Frame.audio f).sample?.isSome = true → admits s.assembly f) :
    (s.apply call).Obeys inv := by
  cases call with
  | manage frame => exact obeys_manage h hr fun f hf hs => by subst hf; exact hadmits f rfl hs
  | configure => exact obeys_configure h hr
  | describe header => exact obeys_relabelled h (s.segmenter.relabelled_describe header)
  | append => exact obeys_append h hr
  | finish => exact obeys_finish h hr
  | flush => exact absurd rfl hflush
  | setOrigin origin => exact obeys_relabelled h (s.segmenter.relabelled_setOrigin origin)
  | setBitrate bitrate => exact obeys_relabelled h (s.segmenter.relabelled_setBitrate bitrate)
  | clear =>
    obtain ⟨a, v, hs, hd⟩ := h
    exact ⟨a, v, hs, hd⟩

end Session
end Packager

import Packager.Proofs.Operations
import Packager.Publisher.Channel
/-!
# Proofs.SealedSlots — a slot that is not empty holds a whole media segment

Nothing but `close` fills a slot, and it fills it with the media segment of a fragment, under the fragment's start.  So
what a channel publishes is a media segment that starts at the tick in its name (`Segmenter.sealed_append`,
`Channel.holds_of_finish`).
-/
namespace Packager

/-- Whether a slot holds the media segment of some fragment, unless it is empty. -/
def Slot.Sealed (s : Slot) : Prop := s.isEmpty = false → ∃ f, s.Holds f

theorem Slot.sealed_of_isEmpty {s : Slot} (h : s.isEmpty = true) : s.Sealed := by
  intro hn
  rw [h] at hn
  cases hn

theorem Slot.sealed_clear (s : Slot) : s.clear.Sealed := sealed_of_isEmpty rfl

theorem Assembly.holds_close {a : Assembly} {slot : Slot} (h : (a.close slot).result = .ok true) :
    ∃ f, (a.close slot).slot.Holds f := by
  rcases a.close_cases slot with ⟨-, hc⟩ | ⟨-, ⟨length, capacity, hc⟩, -, -⟩ | ⟨-, -, -, hh, -⟩
  · rw [hc] at h
    cases h
  · rw [hc] at h
    cases h
  · exact ⟨a.segment, hh⟩

theorem Assembly.sealed_close (a : Assembly) {slot : Slot} (h : slot.Sealed) : (a.close slot).slot.Sealed := by
  rcases a.close_cases slot with ⟨-, hc⟩ | ⟨-, -, -, hs⟩ | ⟨-, -, -, hh, -⟩
  · rw [hc]
    exact h
  · rw [hs]
    exact h
  · exact fun _ => ⟨a.segment, hh⟩

theorem AudioStream.sealed_resynchronize (a : Assembly) (v : AudioStream) (next : Nat) {slot : Slot} (h : slot.Sealed) :
    (resynchronize a v next slot).slot.Sealed := by
  rcases resynchronize_cases a v next slot with ⟨-, he⟩ | ⟨-, -, ⟨-, he⟩ | ⟨-, g, -, he⟩ | ⟨-, -, he⟩⟩ <;> rw [he]
  · exact h
  · exact a.sealed_close h
  · exact h
  · exact h

theorem AudioStream.sealed_append (a : Assembly) (v : AudioStream) {slot : Slot} (h : slot.Sealed) :
    (append a v slot).slot.Sealed := by
  unfold append
  cases a.pending with
  | none => exact h
  | some p =>
    have hcut := sealed_resynchronize { a with pending := none } v p.start h
    simp only
    split
    · split
      · exact Assembly.sealed_close _ hcut
      · exact hcut
    · exact hcut

theorem VideoStream.sealed_appendFrame (a : Assembly) (v : VideoStream) (p : Pending) {slot : Slot} (h : slot.Sealed) :
    (appendFrame a v p slot).slot.Sealed := by
  unfold appendFrame
  split
  · exact h
  · simp only
    split
    · exact Assembly.sealed_close _ h
    · exact h

theorem VideoStream.sealed_appendAll : ∀ (queue : List Pending) (acc : Outcome (Assembly × VideoStream)),
    acc.slot.Sealed → (appendAll queue acc).slot.Sealed
  | [], _, h => h
  | p :: queue, acc, h => sealed_appendAll queue _ (sealed_appendFrame acc.state.1 acc.state.2 p h)

namespace Segmenter

theorem sealed_append (s : Segmenter) {slot : Slot} (h : slot.Sealed) : (s.append slot).slot.Sealed := by
  obtain ⟨a, stream⟩ := s
  by_cases hc : a.configured = true
  · cases stream with
    | audio v =>
      rw [append_audio v slot hc]
      exact AudioStream.sealed_append a v h
    | video v =>
      rw [append_video v slot hc]
      exact VideoStream.sealed_appendAll _ _ h
  · rw [append, if_pos (by simpa using hc)]
    exact h

theorem sealed_finish (s : Segmenter) {slot : Slot} (h : slot.Sealed) : (s.finish slot).slot.Sealed := by
  rcases s.finish_cases slot with ⟨-, he⟩ | ⟨-, -, hs, -⟩
  · rw [he]
    exact h
  · rw [hs]
    exact Assembly.sealed_close _ h

end Segmenter

namespace Channel

theorem sealed_start (settings : Settings) (id : TrackId) (kind : Kind) : (start settings id kind).slot.Sealed :=
  Slot.sealed_of_isEmpty rfl

/-- **What finishing a track leaves for publication is a media segment.** -/
theorem holds_of_finish {c : Channel} (h : c.finish.1 = true) : ∃ f, c.finish.2.slot.Holds f := by
  have hr : (c.segmenter.finish c.slot).result = .ok true := by
    unfold finish at h
    simp only at h
    split at h
    · assumption
    · cases h
  show ∃ f, (c.segmenter.finish c.slot).slot.Holds f
  rcases c.segmenter.finish_cases c.slot with ⟨-, he⟩ | ⟨-, hresult, hs, -⟩
  · rw [he] at hr
    cases hr
  · rw [hs]
    exact Assembly.holds_close (hresult.symm.trans hr)

theorem sealed_finish {c : Channel} (h : c.slot.Sealed) : c.finish.2.slot.Sealed := c.segmenter.sealed_finish h

end Channel
end Packager

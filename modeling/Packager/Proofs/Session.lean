import Packager.Proofs.Operations
/-!
# Proofs.Session — runs of a segmenter with its slot

A session is a segmenter with the slot for its finished segments, and what an observer wrote down: the frames that were
taken, each with the clock right after it, when the timing became known, when the track was finished, and the slot each
time it was filled.  `apply` carries out one call, `run` a list of them.  What the caller promises is a rule on the calls
(`Follows`); a property that every call under the rule keeps holds after every run under it (`run_invariant`).
-/
namespace Packager

/-- A call on a segmenter or its slot. -/
inductive Call where
  | manage (frame : Frame)
  | configure
  /-- Makes the initialization segment into a slot of its own. -/
  | describe (header : Slot)
  | append
  | finish
  | flush
  | setOrigin (origin : Nanos)
  | setBitrate (bitrate : Nat)
  /-- Empties the slot. -/
  | clear

/-- Which call comes next in the order `manage`, `configure`, `append`. -/
inductive Due where
  | manage
  | configure
  | append
  deriving DecidableEq, Repr

/-- What an observer of a session writes down. -/
inductive Moment where
  /-- A frame was taken; the clock right after it. -/
  | taken (frame : Frame) (clock : Clock)
  /-- The timing became known. -/
  | configured
  /-- All that waited was closed. -/
  | finished

/-- A segmenter with its slot, in the middle of a run. -/
structure Session where
  segmenter : Segmenter
  slot : Slot
  due : Due
  history : List Moment
  /-- The slot each time it was filled. -/
  placed : List Slot

namespace Session

def start (kind : Kind) (plan : SegmenterPlan) (capacity : Nat) : Session :=
  ⟨.start kind plan, .empty capacity, .manage, [], []⟩

def assembly (s : Session) : Assembly := s.segmenter.assembly

/-- The session after an operation that may fill the slot. -/
def after (s : Session) (out : Outcome Segmenter) : Session :=
  { s with segmenter := out.state, slot := out.slot, placed := s.placed ++ out.made }

/-- Carries out one call.  A refused frame leaves all as it was, and after a failed `configure` the next frame is due. -/
def apply (s : Session) : Call → Session
  | .manage frame =>
    match s.segmenter.manage frame with
    | .error _ => s
    | .ok (_, g) =>
      { s with
        segmenter := g
        due := .configure
        history := s.history ++ if frame.sample?.isSome then [.taken frame g.assembly.clock] else [] }
  | .configure =>
    match s.segmenter.configure with
    | .error _ => { s with due := .manage }
    | .ok g =>
      { s with
        segmenter := g
        due := .append
        history := s.history ++ if s.assembly.configured then [] else [.configured] }
  | .describe header => { s with segmenter := (s.segmenter.describe header).state }
  | .append => { s.after (s.segmenter.append s.slot) with due := .manage }
  | .finish =>
    let out := s.segmenter.finish s.slot
    { s.after out with history := s.history ++ if out.result.isOk then [.finished] else [] }
  | .flush => { s with segmenter := s.segmenter.flush }
  | .setOrigin origin => { s with segmenter := (s.segmenter.setOrigin origin).2 }
  | .setBitrate bitrate => { s with segmenter := s.segmenter.setBitrate bitrate }
  | .clear => { s with slot := s.slot.clear }

theorem apply_manage_error {s : Session} {frame : Frame} {e : Failure} (h : s.segmenter.manage frame = .error e) :
    s.apply (.manage frame) = s := by
  unfold apply
  simp only [h]

theorem apply_manage_ok {s : Session} {frame : Frame} {isNew : Bool} {g : Segmenter}
    (h : s.segmenter.manage frame = .ok (isNew, g)) : s.apply (.manage frame) =
      { s with
        segmenter := g
        due := .configure
        history := s.history ++ if frame.sample?.isSome then [.taken frame g.assembly.clock] else [] } := by
  unfold apply
  simp only [h]

theorem apply_configure_error {s : Session} {lack : Lack} (h : s.segmenter.configure = .error lack) :
    s.apply .configure = { s with due := .manage } := by
  unfold apply
  simp only [h]

theorem apply_configure_ok {s : Session} {g : Segmenter} (h : s.segmenter.configure = .ok g) : s.apply .configure =
    { s with
      segmenter := g
      due := .append
      history := s.history ++ if s.assembly.configured then [] else [.configured] } := by
  unfold apply
  simp only [h]

/-- **Every call but one keeps to what the operations of a segmenter keep to.** -/
theorem apply_inherited {R : Segmenter → Segmenter → Prop} (hR : Segmenter.Inherited R) (s : Session) (call : Call) :
    R s.segmenter (s.apply call).segmenter ∨ ∃ bitrate, call = .setBitrate bitrate := by
  cases call with
  | manage frame =>
    cases hm : s.segmenter.manage frame with
    | error e =>
      rw [apply_manage_error hm]
      exact .inl (hR.refl s.segmenter)
    | ok r =>
      rw [apply_manage_ok hm]
      exact .inl (hR.manage hm)
  | configure =>
    cases hc : s.segmenter.configure with
    | error lack =>
      rw [apply_configure_error hc]
      exact .inl (hR.refl s.segmenter)
    | ok g =>
      rw [apply_configure_ok hc]
      exact .inl (hR.configure hc)
  | describe header => exact .inl (hR.describe s.segmenter header)
  | append => exact .inl (hR.append s.segmenter s.slot)
  | finish => exact .inl (hR.finish s.segmenter s.slot)
  | flush => exact .inl (hR.flush s.segmenter)
  | setOrigin origin => exact .inl (hR.setOrigin s.segmenter origin)
  | setBitrate bitrate => exact .inr ⟨bitrate, rfl⟩
  | clear => exact .inl (hR.refl s.segmenter)

theorem apply_kept {P : Segmenter → Prop} (hP : Segmenter.Inherited fun s g => P s → P g)
    (hbitrate : ∀ s bitrate, P s → P (s.setBitrate bitrate)) (s : Session) (call : Call) (h : P s.segmenter) :
    P (s.apply call).segmenter := by
  rcases s.apply_inherited hP call with hkept | ⟨bitrate, rfl⟩
  · exact hkept h
  · exact hbitrate s.segmenter bitrate h

def run (s : Session) (calls : List Call) : Session := calls.foldl apply s

theorem run_concat (s : Session) (calls : List Call) (call : Call) : s.run (calls ++ [call]) = (s.run calls).apply call := by
  rw [run, List.foldl_append]
  rfl

/-- Whether every call of a run keeps a rule on the session that it meets. -/
def Follows (rule : Session → Call → Prop) : Session → List Call → Prop
  | _, [] => True
  | s, call :: calls => rule s call ∧ Follows rule (s.apply call) calls

instance decidableFollows (rule : Session → Call → Prop) [∀ s call, Decidable (rule s call)] :
    ∀ (calls : List Call) (s : Session), Decidable (Follows rule s calls)
  | [], _ => .isTrue trivial
  | call :: calls, s =>
    have := decidableFollows rule calls (s.apply call)
    inferInstanceAs (Decidable (_ ∧ _))

theorem Follows.mono {rule weaker : Session → Call → Prop} (h : ∀ s call, rule s call → weaker s call) :
    ∀ {calls : List Call} {s : Session}, Follows rule s calls → Follows weaker s calls
  | [], _, _ => trivial
  | call :: _, s, hf => ⟨h s call hf.1, hf.2.mono h⟩

/-- **What every call under a rule keeps holds after every run under it.** -/
theorem run_invariant {rule : Session → Call → Prop} {inv : Session → Prop}
    (step : ∀ s call, inv s → rule s call → inv (s.apply call)) :
    ∀ (calls : List Call) (s : Session), Follows rule s calls → inv s → inv (s.run calls)
  | [], _, _, h => h
  | call :: calls, s, hf, h => run_invariant step calls (s.apply call) hf.2 (step s call h hf.1)

end Session

end Packager

import Mathlib.Data.List.Induction
import Packager.Proofs.FixedParts
import Packager.Proofs.Session
/-!
# Proofs.OneOrigin — all ticks of a track count from one origin

The first frame fixes tick zero, and no call moves it from then on.  So the ticks at which the frames of a run arrived are
those of their time stamps after one origin (`exists_origin`).
-/
namespace Packager
namespace Session

/-- No call but one changes the parameters of the segmenter, or tick zero once it is fixed. -/
theorem apply_keeps (s : Session) (call : Call) :
    s.segmenter.Keeps (s.apply call).segmenter ∨ ∃ bitrate, call = .setBitrate bitrate :=
  s.apply_inherited Segmenter.keeps_inherited call

theorem manage_offset {s g : Segmenter} {frame : Frame} {isNew : Bool} (h : s.manage frame = .ok (isNew, g))
    (hs : frame.sample?.isSome = true) : g.assembly.clock.offset.isSome = true := by
  rcases Segmenter.manage_cases h with ⟨a, v, f, b, w, rfl, rfl, hm, rfl⟩ | ⟨a, v, f, b, w, rfl, rfl, hm, rfl⟩
  · obtain ⟨data, phase, -, rfl, -⟩ := AudioStream.manage_ok hm
    obtain ⟨origin, expected, hc, -⟩ := a.clock.accept_state f.pts
    rw [hc]
    rfl
  · rcases VideoStream.manage_taken hm with ⟨hnone, -⟩ | ⟨data, isSync, phase, -, rfl, -⟩
    · rw [hnone] at hs
      cases hs
    · obtain ⟨origin, expected, hc, -⟩ := a.clock.accept_state f.pts
      rw [hc]
      rfl

/-- A call adds to the history, and a frame that it takes with the clock right after it. -/
theorem history_apply (s : Session) (call : Call) : ∃ new, (s.apply call).history = s.history ++ new ∧
    ∀ frame clock, Moment.taken frame clock ∈ new →
      clock = (s.apply call).assembly.clock ∧ clock.offset.isSome = true := by
  have quiet : ∀ {t : Session}, t.history = s.history → ∃ new, t.history = s.history ++ new ∧
      ∀ frame clock, Moment.taken frame clock ∈ new → clock = t.assembly.clock ∧ clock.offset.isSome = true :=
    fun h => ⟨[], by rw [h, List.append_nil], nofun⟩
  cases call with
  | manage frame =>
    cases hm : s.segmenter.manage frame with
    | error e =>
      rw [apply_manage_error hm]
      exact quiet rfl
    | ok r =>
      rw [apply_manage_ok hm]
      refine ⟨_, rfl, fun f clock hf => ?_⟩
      split at hf
      · rename_i hsample
        cases List.mem_singleton.1 hf
        exact ⟨rfl, manage_offset hm hsample⟩
      · cases hf
  | configure =>
    cases hc : s.segmenter.configure with
    | error lack =>
      rw [apply_configure_error hc]
      exact quiet rfl
    | ok g =>
      rw [apply_configure_ok hc]
      refine ⟨_, rfl, fun f clock hf => ?_⟩
      split at hf <;> simp at hf
  | finish =>
    refine ⟨_, rfl, fun f clock hf => ?_⟩
    split at hf <;> simp at hf
  | describe | append | flush | setOrigin | setBitrate | clear => exact quiet rfl

/-- **The ticks of all frames count from one origin**, whatever the calls. -/
theorem counted_from (kind : Kind) (plan : SegmenterPlan) (capacity : Nat) (calls : List Call) :
    let s := (start kind plan capacity).run calls
    s.assembly.clock.timeBase = plan.timeBase ∧
    ∀ frame clock, Moment.taken frame clock ∈ s.history → s.assembly.clock.offset.isSome = true ∧
      clock.zero? = s.assembly.clock.zero? ∧ clock.timeBase = s.assembly.clock.timeBase := by
  induction calls using List.reverseRecOn with
  | nil => exact ⟨rfl, nofun⟩
  | append_singleton calls call ih =>
    rw [run_concat]
    generalize (start kind plan capacity).run calls = s at ih
    obtain ⟨hbase, hcounted⟩ := ih
    obtain ⟨new, hhistory, hnew⟩ := s.history_apply call
    have hkept : (s.apply call).assembly.clock.timeBase = s.assembly.clock.timeBase ∧
        (s.assembly.clock.offset.isSome = true → (s.apply call).assembly.clock.offset.isSome = true ∧
          (s.apply call).assembly.clock.zero? = s.assembly.clock.zero?) := by
      rcases s.apply_keeps call with h | ⟨bitrate, rfl⟩
      · exact ⟨h.timeBase, h.zero⟩
      · exact ⟨rfl, fun h => ⟨h, rfl⟩⟩
    refine ⟨hkept.1.trans hbase, fun frame clock hf => ?_⟩
    rw [hhistory] at hf
    rcases List.mem_append.1 hf with hf | hf
    · obtain ⟨hoffset, hzero, htime⟩ := hcounted frame clock hf
      obtain ⟨hoffset', hzero'⟩ := hkept.2 hoffset
      exact ⟨hoffset', hzero.trans hzero'.symm, htime.trans hkept.1.symm⟩
    · obtain ⟨rfl, hoffset⟩ := hnew frame clock hf
      exact ⟨hoffset, rfl, rfl⟩

theorem exists_origin (kind : Kind) (plan : SegmenterPlan) (capacity : Nat) (calls : List Call) :
    ∃ origin, ∀ frame clock, Moment.taken frame clock ∈ ((start kind plan capacity).run calls).history →
      clock.ticksAt frame.pts = nanosToTicks (frame.pts - origin) plan.timeBase := by
  obtain ⟨hbase, hcounted⟩ := counted_from kind plan capacity calls
  generalize (start kind plan capacity).run calls = s at hbase hcounted
  refine ⟨s.assembly.clock.zero?.getD 0, fun frame clock hf => ?_⟩
  obtain ⟨hoffset, hzero, htime⟩ := hcounted frame clock hf
  obtain ⟨origin, horigin⟩ : ∃ origin, s.assembly.clock.zero? = some origin := by
    obtain ⟨first, hfirst⟩ := Option.isSome_iff_exists.1 hoffset
    unfold Clock.zero?
    rw [hfirst]
    cases s.assembly.clock.origin with
    | none => exact ⟨first, rfl⟩
    | some origin => exact ⟨origin, rfl⟩
  rw [horigin] at hzero
  unfold Clock.ticksAt
  rw [hzero, horigin, htime, hbase]
  rfl

end Session
end Packager

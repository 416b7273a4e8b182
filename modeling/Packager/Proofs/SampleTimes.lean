import Mathlib.Algebra.Ring.Nat
import Mathlib.Data.List.Forall2
import Packager.Proofs.Operations
/-!
# Proofs.SampleTimes — the decode times of samples, open and placed

The decode time of a sample is the start of its fragment plus the durations of the samples before it (`Sample.timed`).
Pushing a sample at the end of the open fragment and stretching the last one leave the decode times before it as they
were.  `Filed` says where timed samples are: in groups that were cut, of which some are in placed slots, or still open.
-/
namespace Packager

namespace Sample

/-- Samples with their decode times, the first at `time`. -/
def timed : Nat → List Sample → List (Nat × Bytes)
  | _, [] => []
  | time, s :: rest => (time, s.data) :: timed (time + s.duration.toNat) rest

def span (samples : List Sample) : Nat := (samples.map (·.duration.toNat)).sum

theorem span_append (l m : List Sample) : span (l ++ m) = span l + span m := by
  unfold span
  rw [List.map_append, List.sum_append]

@[simp] theorem span_singleton (s : Sample) : span [s] = s.duration.toNat := by simp [span]

theorem timed_append : ∀ (time : Nat) (l m : List Sample), timed time (l ++ m) = timed time l ++ timed (time + span l) m
  | _, [], _ => rfl
  | time, s :: l, m => by
    rw [List.cons_append, timed, timed, timed_append (time + s.duration.toNat) l m, List.cons_append]
    simp [span, Nat.add_assoc]

end Sample

/-! ## The open fragment -/

namespace OpenFragment

def timed (f : OpenFragment) : List (Nat × Bytes) := Sample.timed f.start f.samples

def stop (f : OpenFragment) : Nat := f.start + f.duration

/-- Where the fragment starts, for an empty one where it will start. -/
def opening (f : OpenFragment) (next : Nat) : Nat := if f.isEmpty then next else f.start

def lastTicks (f : OpenFragment) : Nat := (f.samples.getLast?.map (·.duration.toNat)).getD 0

/-- Whether the duration is that of the samples; an empty fragment may keep any, the first sample sets it. -/
def Tallied (f : OpenFragment) : Prop := f.isEmpty = false → f.duration = Sample.span f.samples

theorem tallied_of_isEmpty {f : OpenFragment} (h : f.isEmpty = true) : f.Tallied := fun hn => by
  rw [h] at hn
  cases hn

theorem timed_of_isEmpty {f : OpenFragment} (h : f.isEmpty = true) : f.timed = [] := by
  rw [timed, samples_of_isEmpty h]
  rfl

theorem timed_eq_nil {f : OpenFragment} : f.timed = [] ↔ f.isEmpty = true := by
  unfold timed isEmpty
  cases f.samples <;> simp [Sample.timed]

theorem opening_of_isEmpty {f : OpenFragment} (h : f.isEmpty = true) (next : Nat) : f.opening next = next := if_pos h

theorem opening_of_nonempty {f : OpenFragment} (h : f.isEmpty = false) (next : Nat) : f.opening next = f.start := by
  rw [opening, h]
  rfl

theorem opening_mono (f : OpenFragment) {next later : Nat} (h : next ≤ later) : f.opening next ≤ f.opening later := by
  unfold opening
  split
  · exact h
  · exact Nat.le_refl _

theorem isEmpty_setLast (f : OpenFragment) (duration : Nat) : (f.setLast duration).isEmpty = f.isEmpty := by
  rcases f.setLast_cases duration with ⟨-, he⟩ | ⟨before, last, hs, he⟩
  · rw [he]
  · rw [he]
    cases before <;> simp [isEmpty, hs]

/-- A pushed sample is decoded where the fragment ended. -/
theorem timed_push_of_nonempty {f : OpenFragment} (start : Nat) (s : Sample) (ht : f.Tallied) (hn : f.isEmpty = false) :
    (f.push start s).timed = f.timed ++ [(f.stop, s.data)] := by
  unfold push
  rw [if_neg (by simpa using hn), timed, Sample.timed_append, ← ht hn]
  rfl

/-- **A sample pushed at the end of the fragment gets its tick as decode time.** -/
theorem timed_push {f : OpenFragment} {start : Nat} (s : Sample) (ht : f.Tallied)
    (he : f.isEmpty = false → f.stop = start) : (f.push start s).timed = f.timed ++ [(start, s.data)] := by
  cases hn : f.isEmpty with
  | true =>
    rw [timed_of_isEmpty hn, push, if_pos hn]
    rfl
  | false => rw [timed_push_of_nonempty start s ht hn, he hn]

theorem tallied_push {f : OpenFragment} {start : Nat} (s : Sample) (ht : f.Tallied) : (f.push start s).Tallied := by
  intro _
  unfold push
  split
  · simp
  · rename_i h
    rw [Sample.span_append, Sample.span_singleton, ht (by simpa using h)]

theorem isEmpty_push (f : OpenFragment) (start : Nat) (s : Sample) : (f.push start s).isEmpty = false := by
  unfold push
  split <;> simp [isEmpty]

theorem stop_push {f : OpenFragment} {start : Nat} (s : Sample) (he : f.isEmpty = false → f.stop = start) :
    (f.push start s).stop = start + s.duration.toNat := by
  unfold push
  split
  · rfl
  · rename_i h
    rw [← he (by simpa using h), stop, stop, Nat.add_assoc]

theorem lastTicks_push (f : OpenFragment) (start : Nat) (s : Sample) :
    (f.push start s).lastTicks = s.duration.toNat := by
  unfold push
  split <;> simp [lastTicks]

theorem opening_push (f : OpenFragment) (start next : Nat) (s : Sample) :
    (f.push start s).opening next = f.opening start := by
  rw [opening_of_nonempty (f.isEmpty_push start s)]
  unfold push opening
  split <;> rfl

/-! Giving the last sample a duration moves the end and no decode time. -/

theorem timed_setLast (f : OpenFragment) (duration : Nat) : (f.setLast duration).timed = f.timed := by
  rcases f.setLast_cases duration with ⟨-, he⟩ | ⟨before, last, hs, he⟩
  · rw [he]
  · rw [he, timed, timed, hs, Sample.timed_append, Sample.timed_append]
    rfl

theorem tallied_setLast {f : OpenFragment} {duration : Nat} (ht : f.Tallied) (hfit : duration ≤ longest) :
    (f.setLast duration).Tallied := by
  rcases f.setLast_cases duration with ⟨-, he⟩ | ⟨before, last, hs, he⟩
  · rwa [he]
  · have hspan := ht (by simp [isEmpty, hs])
    have hword : min duration longest < 2 ^ 32 := by
      unfold longest UInt32.size
      omega
    rw [hs, Sample.span_append, Sample.span_singleton] at hspan
    intro _
    rw [he, Sample.span_append, Sample.span_singleton, UInt32.toNat_ofNat_of_lt' hword]
    show f.duration - last.duration.toNat + duration = _
    omega

theorem stop_setLast {f : OpenFragment} (duration : Nat) (ht : f.Tallied) (hn : f.isEmpty = false) :
    (f.setLast duration).stop + f.lastTicks = f.stop + duration := by
  rcases f.setLast_cases duration with ⟨he, -⟩ | ⟨before, last, hs, he⟩
  · rw [hn] at he
    cases he
  · have hspan := ht hn
    have hlast : f.lastTicks = last.duration.toNat := by simp [lastTicks, hs]
    rw [hs, Sample.span_append, Sample.span_singleton] at hspan
    rw [he, hlast]
    show f.start + (f.duration - last.duration.toNat + duration) + last.duration.toNat = f.start + f.duration + duration
    omega

theorem start_setLast (f : OpenFragment) (duration : Nat) : (f.setLast duration).start = f.start := by
  rcases f.setLast_cases duration with ⟨-, he⟩ | ⟨before, last, -, he⟩ <;> rw [he]

/-- The decode time of the last sample. -/
theorem exists_last_timed {f : OpenFragment} {start : Nat} (ht : f.Tallied) (hn : f.isEmpty = false)
    (hs : f.stop = start + f.lastTicks) : ∃ front data, f.timed = front ++ [(start, data)] := by
  obtain ⟨before, last, hsamples⟩ := exists_last hn
  have hspan := ht hn
  have hlast : f.lastTicks = last.duration.toNat := by simp [lastTicks, hsamples]
  rw [hsamples, Sample.span_append, Sample.span_singleton] at hspan
  have hstart : f.start + Sample.span before = start := by
    unfold stop at hs
    omega
  refine ⟨Sample.timed f.start before, last.data, ?_⟩
  rw [timed, hsamples, Sample.timed_append, hstart]
  rfl

/-- **Stretching the last sample up to `next`** is possible when it can hold the gap, and moves no decode time. -/
theorem bridge?_of_gap {f : OpenFragment} {next : Nat} (hn : f.isEmpty = false) (ht : f.Tallied) (hgap : f.stop < next)
    (hfit : f.lastTicks + (next - f.stop) ≤ longest) :
    ∃ g, f.bridge? next = some g ∧ g.isEmpty = false ∧ g.Tallied ∧ g.start = f.start ∧ g.stop = next ∧
      g.timed = f.timed := by
  obtain ⟨before, last, hs⟩ := exists_last hn
  have hlast : f.lastTicks = last.duration.toNat := by simp [lastTicks, hs]
  rw [hlast] at hfit
  unfold stop at hgap hfit
  have hspan := ht hn
  rw [hs, Sample.span_append, Sample.span_singleton] at hspan
  generalize hg : next - (f.start + f.duration) = gap at hfit
  have hpos : ¬(gap = 0 ∨ longest < last.duration.toNat + gap) := by omega
  have hb : f.bridge? next = some
      { f with
        samples := before ++ [{ last with duration := .ofNat (last.duration.toNat + gap) }]
        duration := f.duration + gap } := by
    unfold bridge?
    rw [hs, List.getLast?_append, List.dropLast_concat]
    simp only [List.getLast?_singleton, Option.some_or, hg, if_neg hpos]
  refine ⟨_, hb, by simp [isEmpty], ?_, rfl, ?_, ?_⟩
  · have hword : last.duration.toNat + gap < 2 ^ 32 := by
      unfold longest UInt32.size at hfit
      omega
    intro _
    rw [Sample.span_append, Sample.span_singleton, UInt32.toNat_ofNat_of_lt' hword]
    show f.duration + gap = _
    omega
  · unfold stop
    show f.start + (f.duration + gap) = next
    omega
  · unfold timed
    rw [hs, Sample.timed_append, Sample.timed_append]
    rfl

end OpenFragment

/-! ## Placed segments -/

/-- Whether a slot holds the media segment of a group of timed samples, under their span. -/
def Slot.Carries (slot : Slot) (group : List (Nat × Bytes)) : Prop :=
  ∃ f : Fragment, slot.Holds f ∧ Sample.timed slot.timestamp f.samples = group ∧ slot.duration = Sample.span f.samples

/-- Where the samples of a time line are: those of `rest` wait, the others were cut in `groups`, of which `kept` are in
the placed slots.  The slots lie one after the other before the tick `next`. -/
structure Filed (line : List (Nat × Bytes)) (placed : List Slot) (rest : List (Nat × Bytes)) (next : Nat)
    (groups kept : List (List (Nat × Bytes))) : Prop where
  all : groups.flatten ++ rest = line
  sublist : kept.Sublist groups
  carries : List.Forall₂ Slot.Carries placed kept
  apart : placed.Pairwise fun a b => a.timestamp + a.duration ≤ b.timestamp
  before : ∀ slot ∈ placed, slot.timestamp + slot.duration ≤ next

namespace Filed

variable {line rest : List (Nat × Bytes)} {placed : List Slot} {next : Nat} {groups kept : List (List (Nat × Bytes))}

theorem nothing (next : Nat) : Filed [] [] [] next [] [] :=
  ⟨rfl, .slnil, .nil, .nil, fun _ h => absurd h List.not_mem_nil⟩

theorem mono (h : Filed line placed rest next groups kept) {later : Nat} (hl : next ≤ later) :
    Filed line placed rest later groups kept :=
  ⟨h.all, h.sublist, h.carries, h.apart, fun slot hs => Nat.le_trans (h.before slot hs) hl⟩

theorem of_unplaced (h : Filed line [] rest next groups kept) (later : Nat) : Filed line [] rest later groups kept :=
  ⟨h.all, h.sublist, h.carries, h.apart, fun _ hs => absurd hs List.not_mem_nil⟩

theorem taken (h : Filed line placed rest next groups kept) (sample : Nat × Bytes) :
    Filed (line ++ [sample]) placed (rest ++ [sample]) next groups kept :=
  ⟨by rw [← List.append_assoc, h.all], h.sublist, h.carries, h.apart, h.before⟩

theorem lost {group : List (Nat × Bytes)} (h : Filed line placed (group ++ rest) next groups kept) :
    Filed line placed rest next (groups ++ [group]) kept := by
  refine ⟨?_, h.sublist.trans (List.sublist_append_left groups [group]), h.carries, h.apart, h.before⟩
  rw [List.flatten_append, List.flatten_singleton, List.append_assoc, h.all]

theorem put {group : List (Nat × Bytes)} {slot : Slot} (h : Filed line placed (group ++ rest) slot.timestamp groups kept)
    (hc : slot.Carries group) :
    Filed line (placed ++ [slot]) rest (slot.timestamp + slot.duration) (groups ++ [group]) (kept ++ [group]) := by
  refine ⟨?_, h.sublist.append (List.Sublist.refl [group]), ?_, ?_, fun s hs => ?_⟩
  · rw [List.flatten_append, List.flatten_singleton, List.append_assoc, h.all]
  · exact List.rel_append h.carries (.cons hc .nil)
  · refine List.pairwise_append.2 ⟨h.apart, List.pairwise_singleton _ _, fun a ha b hb => ?_⟩
    rw [List.mem_singleton.1 hb]
    exact h.before a ha
  · rcases List.mem_append.1 hs with hs | hs
    · exact Nat.le_trans (h.before s hs) (Nat.le_add_right _ _)
    · exact Nat.le_of_eq (by rw [List.mem_singleton.1 hs])

/-- **Closing files the open fragment**, whose samples are then cut. -/
theorem close {a : Assembly} (slot : Slot) (ht : a.fragment.Tallied) {later : Nat}
    (hs : a.fragment.isEmpty = false → a.fragment.stop ≤ later)
    (h : Filed line placed (a.fragment.timed ++ rest) (a.fragment.opening later) groups kept) :
    ∃ groups' kept', Filed line (placed ++ (a.close slot).made) rest later groups' kept' := by
  rcases a.close_cases slot with ⟨he, hc⟩ | ⟨he, ⟨length, capacity, hr⟩, -, -⟩ | ⟨he, hr, -, hh, -, ht', hd⟩
  · rw [OpenFragment.timed_of_isEmpty he, OpenFragment.opening_of_isEmpty he] at h
    rw [hc, Outcome.made, List.append_nil]
    exact ⟨groups, kept, h⟩
  · rw [Outcome.made, hr, List.append_nil]
    rw [OpenFragment.opening_of_nonempty he] at h
    have hle : a.fragment.start ≤ later := Nat.le_trans (Nat.le_add_right _ _) (hs he)
    exact ⟨_, _, h.lost.mono hle⟩
  · rw [Outcome.made, hr]
    rw [OpenFragment.opening_of_nonempty he, ← ht'] at h
    have hc : (a.close slot).slot.Carries a.fragment.timed := ⟨a.segment, hh, by rw [ht']; rfl, by rw [hd]; exact ht he⟩
    refine ⟨_, _, (h.put hc).mono ?_⟩
    rw [ht', hd]
    exact hs he

end Filed

end Packager

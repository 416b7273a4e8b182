import Packager.Proofs.FragmentLife
import Packager.Proofs.Listing
/-!
# Proofs.Durations — the duration of a segment and those of its samples

A segment is published under the sum of how long its samples last.  What is written of a sample that lasts longer than
32 bits can say is cut off, but the sum is not: the two agree exactly when no sample lasts that long
(`durations_cut_off`).  Only in a video track can one, and only when two frames are that far apart.
-/
namespace Packager

/-- What the track run of a media segment says how long each sample lasts. -/
def durations? (content : Bytes) : Option (List Nat) := do
  let run ← Box.find? Box.containers Fragment.trun content
  let count ← Bytes.readUInt32 4 run
  return (Fragment.readEntries count (run.drop 12)).map Fragment.RunEntry.duration

theorem Fragment.durations?_encode {f : Fragment} (h : f.encode.length < 2 ^ 32) :
    durations? f.encode = some (f.samples.map fun sample => sample.duration.toNat) := by
  obtain ⟨run, hrun, hcount, -, hentries⟩ := (segment_reads_back f (fits_of_length h)).1.entries
  unfold durations?
  rw [hrun]
  simp only [Option.bind_eq_bind, Option.bind_some, hcount, hentries]
  simp [runEntry]

/-- What is written of how long a sample lasts. -/
def cutOff (duration : Nat) : Nat := min duration OpenFragment.longest

theorem sum_cutOff_le : ∀ lasting : List Nat, (lasting.map cutOff).sum ≤ lasting.sum
  | [] => Nat.le_refl 0
  | d :: lasting => by
    have hrest := sum_cutOff_le lasting
    have hd : cutOff d ≤ d := Nat.min_le_left _ _
    rw [List.map_cons, List.sum_cons, List.sum_cons]
    omega

/-- Cutting off changes the sum exactly when there is something to cut off. -/
theorem sum_cutOff : ∀ lasting : List Nat,
    (lasting.map cutOff).sum = lasting.sum ↔ ∀ d ∈ lasting, d ≤ OpenFragment.longest
  | [] => by simp
  | d :: lasting => by
    have hrest := sum_cutOff_le lasting
    have hd : cutOff d ≤ d := Nat.min_le_left _ _
    rw [List.forall_mem_cons, ← sum_cutOff lasting, List.map_cons, List.sum_cons, List.sum_cons]
    have hfits : cutOff d = d ↔ d ≤ OpenFragment.longest := by
      unfold cutOff
      omega
    rw [← hfits]
    omega

/-- Whether the samples of a fragment last as a list says, and only two frames that are far apart make one last longer
than can be written. -/
structure Counted (kind : Kind) (line : List (Nat × Bytes)) (lasting : List Nat) (samples : List Sample) (total : Nat) :
    Prop where
  written : samples.map (fun sample => sample.duration.toNat) = lasting.map cutOff
  total : total = lasting.sum
  long : ∀ d ∈ lasting, OpenFragment.longest < d → kind = .video ∧ Apart line d

namespace Counted

variable {kind : Kind} {line line' : List (Nat × Bytes)} {lasting : List Nat} {samples : List Sample} {total : Nat}

theorem nothing (kind : Kind) (line : List (Nat × Bytes)) : Counted kind line [] [] 0 := ⟨rfl, rfl, nofun⟩

theorem mono (h : Counted kind line lasting samples total) (hl : line ⊆ line') : Counted kind line' lasting samples total := by
  refine ⟨h.written, h.total, fun d hd hlong => ?_⟩
  obtain ⟨hk, tick, ⟨data, hm⟩, data', hm'⟩ := h.long d hd hlong
  exact ⟨hk, tick, ⟨data, hl hm⟩, data', hl hm'⟩

theorem concat (h : Counted kind line lasting samples total) {sample : Sample} {d : Nat}
    (hwritten : sample.duration.toNat = cutOff d) (hlong : OpenFragment.longest < d → kind = .video ∧ Apart line d) :
    Counted kind line (lasting ++ [d]) (samples ++ [sample]) (total + d) := by
  refine ⟨?_, ?_, fun x hx => ?_⟩
  · rw [List.map_append, List.map_append, h.written, List.map_singleton, List.map_singleton, hwritten]
  · rw [h.total, List.sum_append, List.sum_singleton]
  · rcases List.mem_append.1 hx with hx | hx
    · exact h.long x hx
    · cases List.mem_singleton.1 hx
      exact hlong

end Counted

theorem toNat_ofNat_of_le {n : Nat} (h : n ≤ OpenFragment.longest) : (UInt32.ofNat n).toNat = n := by
  refine UInt32.toNat_ofNat_of_lt' ?_
  unfold OpenFragment.longest at h
  have hsize : 0 < UInt32.size := by decide
  omega

theorem toNat_le_longest (n : UInt32) : n.toNat ≤ OpenFragment.longest := by
  have hlt : n.toNat < UInt32.size := n.toNat_lt
  unfold OpenFragment.longest
  omega

/-- What is known of the open fragment: the last sample counts with what is written of it, for it can still change. -/
def Measured (kind : Kind) (line : List (Nat × Bytes)) (f : OpenFragment) : Prop :=
  f.isEmpty = false → ∃ before last lasting rest,
    f.samples = before ++ [last] ∧ f.duration = rest + last.duration.toNat ∧ Counted kind line lasting before rest

namespace Measured

variable {kind : Kind} {line line' : List (Nat × Bytes)} {f g : OpenFragment}

theorem nothing (kind : Kind) (line : List (Nat × Bytes)) : Measured kind line .empty := fun hn => by cases hn

theorem mono (h : Measured kind line f) (hl : line ⊆ line') : Measured kind line' f := by
  intro hn
  obtain ⟨before, last, lasting, rest, hs, hd, hcounted⟩ := h hn
  exact ⟨before, last, lasting, rest, hs, hd, hcounted.mono hl⟩

/-- **Once the last sample has its duration, all are measured.** -/
theorem retimed (h : Measured kind line f) (hg : Retimed kind line f g) (hn : g.isEmpty = false) :
    ∃ lasting, Counted kind line lasting g.samples g.duration := by
  cases hg with
  | same =>
    obtain ⟨before, last, lasting, rest, hs, hd, hcounted⟩ := h hn
    have hword := toNat_le_longest last.duration
    rw [hs, hd]
    exact ⟨lasting ++ [last.duration.toNat], hcounted.concat (Nat.min_eq_left hword).symm (by omega)⟩
  | last duration hk hlong =>
    rw [OpenFragment.isEmpty_setLast] at hn
    obtain ⟨before, last, lasting, rest, hs, hd, hcounted⟩ := h hn
    -- the fragment lasts for all of the new duration, of which the sample says what it can
    have hset : f.setLast duration = { f with
        samples := before ++ [{ last with duration := .ofNat (cutOff duration) }]
        duration := rest + duration } := by
      unfold OpenFragment.setLast cutOff
      rw [hs, List.getLast?_concat, List.dropLast_concat]
      simp only [hd, Nat.add_sub_cancel]
    rw [hset]
    exact ⟨lasting ++ [duration], hcounted.concat (toNat_ofNat_of_le (Nat.min_le_right _ _)) fun h => ⟨hk, hlong h⟩⟩

theorem push (h : Measured kind line f) (hg : Retimed kind line f g) (start : Nat) (sample : Sample) :
    Measured kind line (g.push start sample) := by
  intro _
  unfold OpenFragment.push
  cases hn : g.isEmpty with
  | true => exact ⟨[], sample, [], 0, rfl, (Nat.zero_add _).symm, .nothing kind line⟩
  | false =>
    obtain ⟨lasting, hcounted⟩ := h.retimed hg hn
    exact ⟨g.samples, sample, lasting, g.duration, rfl, rfl, hcounted⟩

theorem bridge (h : Measured kind line f) {next : Nat} (hg : f.bridge? next = some g) : Measured kind line g := by
  obtain ⟨before, last, gap, hs, hfits, rfl⟩ := OpenFragment.exists_of_bridge? hg
  intro _
  obtain ⟨before', last', lasting, rest, hs', hd, hcounted⟩ := h (by rw [OpenFragment.isEmpty, hs]; simp)
  obtain ⟨rfl, hlast⟩ := List.append_inj' (hs.symm.trans hs') rfl
  cases hlast
  -- a gap is bridged only where the stretched sample can say all of it
  refine ⟨before, _, lasting, rest, rfl, ?_, hcounted⟩
  rw [toNat_ofNat_of_le hfits, hd, Nat.add_assoc]

end Measured

/-- Whether a slot holds a media segment whose samples last as a list says. -/
def Slot.Counted (kind : Kind) (line : List (Nat × Bytes)) (slot : Slot) : Prop :=
  ∃ (f : Fragment) (lasting : List Nat), slot.data = f.encode ∧ Packager.Counted kind line lasting f.samples slot.duration

/-- **Every step keeps count of how long samples last.** -/
theorem measured_invariant (kind : Kind) : StepInvariant kind fun line placed f _ =>
    Measured kind line f ∧ ∀ slot ∈ placed, slot.Counted kind line := by
  refine .of_cases ?mono (fun h hf _ => ⟨h.1.push hf _ _, h.2⟩) (fun h hb => ⟨h.1.bridge hb, h.2⟩)
    (fun h => ⟨.nothing kind _, h.2⟩) ?file
  case mono =>
    rintro line line' placed f n ⟨hopen, hplaced⟩ hl
    refine ⟨hopen.mono hl, fun slot hm => ?_⟩
    obtain ⟨g, lasting, hdata, hcounted⟩ := hplaced slot hm
    exact ⟨g, lasting, hdata, hcounted.mono hl⟩
  case file =>
    rintro line placed f g n slot ⟨hopen, hplaced⟩ hf hn hs
    obtain ⟨lasting, hcounted⟩ := hopen.retimed hf hn
    refine ⟨.nothing kind line, fun later hm => ?_⟩
    rcases List.mem_append.1 hm with hm | hm
    · exact hplaced later hm
    · cases List.mem_singleton.1 hm
      exact ⟨_, lasting, hs.data, by rw [hs.duration]; exact hcounted⟩

namespace Session

/-- **How the duration of a segment and those of its samples differ**, in every run of a segmenter of either kind and
whichever slots the calls were made with.  The segment is published under the sum of how long its samples last, and each
sample is written with that, cut off at what 32 bits can say.  So the sum of what is written is the duration exactly when
nothing was cut off: always in an audio track, and in a video track as long as no two frames are so far apart. -/
theorem durations_cut_off (kind : Kind) (plan : SegmenterPlan) (capacity : Nat) (calls : List (Slot × Call)) :
    let s := start kind plan capacity
    let line := (s.runAmong calls).line
    ∀ slot ∈ s.filings calls, ∃ (f : Fragment) (lasting : List Nat),
      slot.data = f.encode ∧ f.samples.map (fun sample => sample.duration.toNat) = lasting.map cutOff ∧
      (slot.data.length < 2 ^ 32 → durations? slot.data = some (lasting.map cutOff)) ∧
      slot.duration = lasting.sum ∧
      (∀ d ∈ lasting, OpenFragment.longest < d → kind = .video ∧ Apart line d) ∧
      ((lasting.map cutOff).sum = slot.duration ↔ ∀ d ∈ lasting, d ≤ OpenFragment.longest) := by
  intro s line slot hm
  obtain ⟨-, hall⟩ := (measured_invariant kind).run_start ⟨.nothing kind [], nofun⟩ plan capacity calls
  obtain ⟨f, lasting, hdata, hcounted⟩ := hall slot hm
  refine ⟨f, lasting, hdata, hcounted.written, fun hlength => ?_, hcounted.total, hcounted.long, ?_⟩
  · rw [hdata] at hlength ⊢
    rw [Fragment.durations?_encode hlength, hcounted.written]
  · rw [hcounted.total]
    exact sum_cutOff lasting

/-- Two IDR pictures that are five billion ticks apart. -/
def farPictures : List (Slot × Call) :=
  [0, 5000000000].flatMap fun ms => [(.empty 4096, .manage (pictureAt ms true)), (.empty 4096, .configure),
    (.empty 4096, .append)]

theorem durations_cut_off_far :
    let s := start .video unevenPlan 0
    let slot := (s.runAmong farPictures).slot
    slot ∈ s.filings farPictures ∧ ∃ (f : Fragment) (lasting : List Nat),
      slot.data = f.encode ∧ f.samples.map (fun sample => sample.duration.toNat) = lasting.map cutOff ∧
      (slot.data.length < 2 ^ 32 → durations? slot.data = some (lasting.map cutOff)) ∧
      slot.duration = lasting.sum ∧
      (∀ d ∈ lasting, OpenFragment.longest < d → Kind.video = .video ∧ Apart (s.runAmong farPictures).line d) ∧
      ((lasting.map cutOff).sum = slot.duration ↔ ∀ d ∈ lasting, d ≤ OpenFragment.longest) := by
  have h : ((start .video unevenPlan 0).runAmong farPictures).slot ∈ (start .video unevenPlan 0).filings farPictures := by
    decide +kernel
  exact ⟨h, durations_cut_off .video unevenPlan 0 farPictures _ h⟩

/-- The first of them lasts until the other, and so does its segment, but less than that is written of the sample. -/
theorem far_picture_cut_off : ∃ slot ∈ (start .video unevenPlan 0).filings farPictures,
    ∃ written, durations? slot.data = some written ∧ written.sum ≠ slot.duration := by
  let f : Fragment := ⟨1, 1, 0, [⟨4294967295, true, [0, 0, 0, 2, 0x65, 1]⟩]⟩
  let slot := ((start .video unevenPlan 0).runAmong farPictures).slot
  have hfiled : slot ∈ (start .video unevenPlan 0).filings farPictures := by decide +kernel
  have hdata : slot.data = f.encode := by decide +kernel
  have hduration : slot.duration = 5000000000 := by decide +kernel
  have hlength : f.encode.length < 2 ^ 32 := by decide +kernel
  refine ⟨slot, hfiled, [4294967295], ?_, by rw [hduration]; decide⟩
  rw [hdata]
  exact Fragment.durations?_encode hlength

end Session

end Packager

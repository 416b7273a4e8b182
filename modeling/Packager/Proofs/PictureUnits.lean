import Packager.Proofs.BigEndian
import Packager.Proofs.Operations
/-!
# Proofs.PictureUnits — where the NAL units of a frame go

A frame brings parameter sets, delimiters and the units of a picture in any order.  The last parameter set of each type is
kept, delimiters are dropped, and the rest is put behind lengths, from which the units come back (`units?_sampleData`).
`manage_sorts_units` says of every frame what is kept, what is put up for appending and what stays as it was.
-/
namespace Packager

/-- The NAL units that stand behind four-byte lengths; none when the bytes end within a length or a unit. -/
def NalUnit.units? : Bytes → Option (List NalUnit)
  | [] => some []
  | s0 :: s1 :: s2 :: s3 :: body =>
    let length := Bytes.toNat [s0, s1, s2, s3]
    if length ≤ body.length then (units? (body.drop length)).map (body.take length :: ·) else none
  | _ => none
termination_by data => data.length
decreasing_by
  simp only [List.length_drop, List.length_cons]
  omega

/-- The units of a frame that make up its picture: all but parameter sets and delimiters. -/
def VideoFrame.pictureUnits (f : VideoFrame) : List NalUnit :=
  (AnnexB.split f.data).filter fun nal => nal.type ≠ 7 ∧ nal.type ≠ 8 ∧ nal.type ≠ 9

/-- Whether what is kept of one type of units is the last one of a frame, or what was kept before when it has none. -/
def KeepsLast (type : Nat) (nals : List NalUnit) (before after : Option NalUnit) : Prop :=
  (∃ front nal back, nals = front ++ nal :: back ∧ nal.type = type ∧ (∀ u ∈ back, u.type ≠ type) ∧ after = some nal) ∨
    (∀ u ∈ nals, u.type ≠ type) ∧ after = before

/-! ## Units behind their lengths -/

theorem NalUnit.units?_append {nal : NalUnit} (h : nal.length < 2 ^ 32) (rest : Bytes) :
    units? (Bytes.bigEndian 4 nal.length ++ nal ++ rest) = (units? rest).map (nal :: ·) := by
  have hlength : Bytes.toNat (Bytes.bigEndian 4 nal.length) = nal.length := Bytes.toNat_bigEndian h
  simp only [Bytes.bigEndian, List.cons_append, List.nil_append] at hlength ⊢
  rw [units?]
  simp only [hlength]
  rw [if_pos (by rw [List.length_append]; omega), List.take_left, List.drop_left]

namespace VideoStream

/-- **The units of a sample come back from their lengths.** -/
theorem units?_sampleData : ∀ {nals : List NalUnit}, (∀ nal ∈ nals, isCoded nal = true → nal.length < 2 ^ 32) →
    NalUnit.units? (sampleData nals) = some (nals.filter isCoded)
  | [], _ => by rw [sampleData, List.filter_nil, List.flatMap_nil, NalUnit.units?]
  | nal :: nals, h => by
    obtain ⟨hnal, hrest⟩ := List.forall_mem_cons.1 h
    have ih := units?_sampleData hrest
    cases hc : isCoded nal with
    | true =>
      have hdata : sampleData (nal :: nals) = Bytes.bigEndian 4 nal.length ++ nal ++ sampleData nals := by
        rw [sampleData, List.filter_cons_of_pos hc, List.flatMap_cons]
        rfl
      rw [hdata, NalUnit.units?_append (hnal hc), ih, List.filter_cons_of_pos hc]
      rfl
    | false =>
      have hdata : sampleData (nal :: nals) = sampleData nals := by
        rw [sampleData, List.filter_cons_of_neg (by simp [hc])]
        rfl
      rw [hdata, ih, List.filter_cons_of_neg (by simp [hc])]

theorem filter_isCoded (f : VideoFrame) : (AnnexB.split f.data).filter isCoded = f.pictureUnits :=
  List.filter_congr fun nal _ => by
    simp only [isCoded, NalUnit.spsType, NalUnit.ppsType, NalUnit.delimiterType, bne, ne_eq, Bool.decide_and,
      decide_not, Bool.and_assoc, beq_eq_decide]

theorem any_isCoded (f : VideoFrame) : (AnnexB.split f.data).any isCoded = true ↔ f.pictureUnits ≠ [] := by
  rw [← filter_isCoded, ne_eq, List.filter_eq_nil_iff, List.any_eq_true]
  simp only [Bool.not_eq_true, not_forall, Bool.not_eq_false, exists_prop]

/-- An IDR picture is neither a parameter set nor a delimiter, so it is found among the units of the picture. -/
theorem isSync_iff (f : VideoFrame) : isSync (AnnexB.split f.data) = true ↔ ∃ nal ∈ f.pictureUnits, nal.type = 5 := by
  simp only [isSync, List.any_eq_true, beq_iff_eq]
  refine exists_congr fun nal => ⟨fun ⟨hmem, htype⟩ => ⟨List.mem_filter.2 ⟨hmem, ?_⟩, htype⟩, fun ⟨hmem, htype⟩ =>
    ⟨(List.mem_filter.1 hmem).1, htype⟩⟩
  have h5 : nal.type = 5 := htype
  simp [h5]

/-! ## Parameter sets -/

theorem keepsLast_lastOfType (type : Nat) (nals : List NalUnit) (before : Option NalUnit) :
    KeepsLast type nals before (lastOfType type nals <|> before) := by
  cases h : lastOfType type nals with
  | none =>
    have hnone := List.filter_eq_nil_iff.1 (List.getLast?_eq_none_iff.1 h)
    exact .inr ⟨fun u hu => by simpa using hnone u hu, rfl⟩
  | some nal =>
    -- the matching units end with `nal`, so the frame splits there and nothing behind it matches
    obtain ⟨earlier, hearlier⟩ := List.getLast?_eq_some_iff.1 h
    obtain ⟨front, rest, rfl, -, hrest⟩ := List.filter_eq_append_iff.1 hearlier
    obtain ⟨others, back, rfl, -, hnal, hback⟩ := List.filter_eq_cons_iff.1 hrest
    refine .inl ⟨front ++ others, nal, back, (List.append_assoc ..).symm, by simpa using hnal, fun u hu => ?_, rfl⟩
    simpa using List.filter_eq_nil_iff.1 hback u hu

theorem keepWaiting_sps (a : Assembly) (v : VideoStream) : (keepWaiting a v).2.sps = v.sps := by
  obtain ⟨_, -, hstream⟩ := keepWaiting_spec a v
  rw [hstream]

theorem keepWaiting_pps (a : Assembly) (v : VideoStream) : (keepWaiting a v).2.pps = v.pps := by
  obtain ⟨_, -, hstream⟩ := keepWaiting_spec a v
  rw [hstream]

/-! ## Frames -/

/-- A frame without a picture leaves its parameter sets and nothing else. -/
theorem manage_sets {a : Assembly} {v : VideoStream} {f : VideoFrame} (hsome : AnnexB.split f.data ≠ [])
    (hnone : f.pictureUnits = []) :
    manage a v f = .ok (false, a, { v with
      sps := lastOfType NalUnit.spsType (AnnexB.split f.data) <|> v.sps
      pps := lastOfType NalUnit.ppsType (AnnexB.split f.data) <|> v.pps }) := by
  have hcoded : ¬(AnnexB.split f.data).any isCoded = true := fun h => (any_isCoded f).1 h hnone
  unfold manage
  simp only
  rw [if_neg (by simpa using hsome), if_pos (by simpa using hcoded)]

/-- A frame with a picture puts it up for appending, behind its parameter sets. -/
theorem manage_picture {v : VideoStream} {f : VideoFrame} (a : Assembly) (hpicture : f.pictureUnits ≠ []) :
    ∃ isNew b w start, manage a v f = .ok (isNew, b, w) ∧
      w.sps = (lastOfType NalUnit.spsType (AnnexB.split f.data) <|> v.sps) ∧
      w.pps = (lastOfType NalUnit.ppsType (AnnexB.split f.data) <|> v.pps) ∧
      b.pending = some ⟨start, sampleData (AnnexB.split f.data), isSync (AnnexB.split f.data)⟩ := by
  have hsome : AnnexB.split f.data ≠ [] := fun h => hpicture (by rw [VideoFrame.pictureUnits, h, List.filter_nil])
  have hcoded := (any_isCoded f).2 hpicture
  unfold manage
  simp only
  rw [if_neg (by simpa using hsome), if_neg (by simpa using hcoded)]
  exact ⟨_, _, _, _, rfl, keepWaiting_sps .., keepWaiting_pps .., rfl⟩

/-- **Every NAL unit of a frame goes where its type says.**  The parameter sets kept are the last of the frame, or those
from before; the picture comes back from the sample unit by unit, in order, and is a sync sample when it has an IDR
slice; without a picture nothing else changes. -/
theorem manage_sorts_units (a : Assembly) (v : VideoStream) (f : VideoFrame) :
    (AnnexB.split f.data = [] → manage a v f = .error (.bitstream .noStartCode)) ∧
    (AnnexB.split f.data ≠ [] → ∃ isNew b w, manage a v f = .ok (isNew, b, w) ∧
      KeepsLast 7 (AnnexB.split f.data) v.sps w.sps ∧ KeepsLast 8 (AnnexB.split f.data) v.pps w.pps ∧
      (f.pictureUnits = [] → isNew = false ∧ b = a ∧ w = { v with sps := w.sps, pps := w.pps }) ∧
      (f.pictureUnits ≠ [] → ∃ p, b.pending = some p ∧
        (p.isSync = true ↔ ∃ nal ∈ f.pictureUnits, nal.type = 5) ∧
        ((∀ nal ∈ f.pictureUnits, nal.length < 2 ^ 32) → NalUnit.units? p.data = some f.pictureUnits))) := by
  refine ⟨fun hnone => ?_, fun hsome => ?_⟩
  · unfold manage
    simp only
    rw [if_pos (by rw [hnone]; rfl)]
  · by_cases hpicture : f.pictureUnits = []
    · exact ⟨false, a, _, manage_sets hsome hpicture, keepsLast_lastOfType .., keepsLast_lastOfType ..,
        fun _ => ⟨rfl, rfl, rfl⟩, fun h => absurd hpicture h⟩
    · obtain ⟨isNew, b, w, start, hmanage, hsps, hpps, hpending⟩ := manage_picture (v := v) a hpicture
      refine ⟨isNew, b, w, hmanage, hsps ▸ keepsLast_lastOfType .., hpps ▸ keepsLast_lastOfType ..,
        fun h => absurd h hpicture, fun _ => ⟨_, hpending, isSync_iff f, fun hshort => ?_⟩⟩
      rw [← filter_isCoded]
      exact units?_sampleData fun nal hnal hc => hshort nal (filter_isCoded f ▸ List.mem_filter.2 ⟨hnal, hc⟩)

/-- A delimiter, two sequence parameter sets, an SEI message, a picture parameter set and an IDR slice, behind start codes
with zeros to spare; and a frame of a picture parameter set alone. -/
theorem manage_sorts_units_mixed :
    let mixed : VideoFrame := ⟨0, 16, 16, [9, 0, 0, 1, 9, 240, 0, 0, 0, 1, 103, 1, 0, 0, 1, 103, 2, 0, 0, 0, 0, 1, 6, 4,
      0, 0, 1, 104, 3, 0, 0, 1, 101, 136, 0, 7, 0, 0]⟩
    let sets : VideoFrame := ⟨0, 0, 0, [0, 0, 1, 104, 5]⟩
    let nals : List NalUnit := [[9, 240], [103, 1], [103, 2], [6, 4], [104, 3], [101, 136, 0, 7]]
    AnnexB.split mixed.data = nals ∧ AnnexB.split mixed.data ≠ [] ∧ mixed.pictureUnits = [[6, 4], [101, 136, 0, 7]] ∧
      (∃ isNew b w p, manage (.start .default) start mixed = .ok (isNew, b, w) ∧ KeepsLast 7 nals none w.sps ∧
        b.pending = some p ∧ p.isSync = true ∧ NalUnit.units? p.data = some [[6, 4], [101, 136, 0, 7]]) ∧
      AnnexB.split sets.data ≠ [] ∧ sets.pictureUnits = [] ∧
      ∃ w, manage (.start .default) start sets = .ok (false, .start .default, w) ∧
        KeepsLast 8 [[104, 5]] none w.pps ∧ w = { start with sps := w.sps, pps := w.pps } := by
  intro mixed sets nals
  have hnals : AnnexB.split mixed.data = nals := by decide
  have hmixed : mixed.pictureUnits = [[6, 4], [101, 136, 0, 7]] := by decide
  have hsets : AnnexB.split sets.data = [[104, 5]] := by decide
  have hnone : sets.pictureUnits = [] := by decide
  obtain ⟨isNew, b, w, hmanage, hsps, -, -, hpicture⟩ :=
    (manage_sorts_units (.start .default) start mixed).2 (by rw [hnals]; decide)
  obtain ⟨p, hpending, hsync, hunits⟩ := hpicture (by rw [hmixed]; decide)
  obtain ⟨isNew', b', w', hmanage', -, hpps', hsame, -⟩ :=
    (manage_sorts_units (.start .default) start sets).2 (by rw [hsets]; decide)
  obtain ⟨rfl, rfl, hw'⟩ := hsame hnone
  rw [hsets] at hpps'
  rw [hnals] at hsps
  rw [hmixed] at hsync hunits
  exact ⟨hnals, by rw [hnals]; decide, hmixed, ⟨isNew, b, w, p, hmanage, hsps, hpending, hsync.2 (by decide),
    hunits (by decide)⟩, by rw [hsets]; decide, hnone, w', hmanage', hpps', hw'⟩

end VideoStream
end Packager

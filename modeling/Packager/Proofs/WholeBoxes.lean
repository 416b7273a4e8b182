import Packager.Proofs.BoxForest
/-!
# Proofs.WholeBoxes — what a walk sees of any bytes

A walk takes the whole boxes that open a byte string, one behind the other, up to a rest that no whole box opens
(`NoBox`).  Such a rest behind written boxes is not seen at all, and of any bytes the outermost boxes that are seen,
written again, lead the bytes up to that rest (`walk_inverts_writing`).
-/
namespace Packager
namespace Box

open Bytes

/-- Whether no whole box opens some bytes: they are too few for a header, or its size is less than the header's own or
runs past their end. -/
def NoBox (data : Bytes) : Prop := data.length < 8 ∨ toNat (data.take 4) < 8 ∨ data.length < toNat (data.take 4)

instance (data : Bytes) : Decidable (NoBox data) := inferInstanceAs (Decidable (_ ∨ _))

/-- A box that was read, as bytes. -/
def Found.encode (f : Found) : Bytes := header f.type f.payload.length ++ f.payload

/-- The boxes of a walk that stand behind one of its outermost boxes, that box first. -/
def Found.within (inside : List FourCC) (f : Found) : List Found :=
  f :: if f.type ∈ inside then walk inside f.payload else []

theorem next?_eq_none_iff {data : Bytes} : next? data = none ↔ NoBox data := by
  unfold NoBox
  rcases data with _ | ⟨s0, _ | ⟨s1, _ | ⟨s2, _ | ⟨s3, _ | ⟨a, _ | ⟨b, _ | ⟨c, _ | ⟨d, body⟩⟩⟩⟩⟩⟩⟩⟩
  iterate 8 simp [next?]
  simp only [next?, List.take_succ_cons, List.take_zero, List.length_cons, List.length_take]
  generalize toNat [s0, s1, s2, s3] = size
  split
  · rename_i hwhole
    simp only [reduceCtorEq, false_iff]
    omega
  · rename_i hno
    simp only [true_iff]
    omega

/-- **What is cut off is what was there.** -/
theorem eq_of_next? {data rest : Bytes} {f : Found} (h : next? data = some (f, rest)) :
    data = f.encode ++ rest := by
  unfold next? at h
  split at h
  · rename_i s0 s1 s2 s3 a b c d body
    simp only at h
    split at h
    · rename_i hwhole
      cases h
      obtain ⟨hsize, hlen⟩ := hwhole
      have hword : bigEndian 4 (toNat [s0, s1, s2, s3]) = [s0, s1, s2, s3] := bigEndian_toNat [s0, s1, s2, s3]
      rw [Found.encode, header]
      dsimp only
      rw [hlen, Nat.add_sub_cancel' hsize, hword, List.append_assoc, List.append_assoc, List.take_append_drop]
      rfl
    · cases h
  · cases h

theorem walk_of_noBox {inside : List FourCC} {data : Bytes} (h : NoBox data) : walk inside data = [] :=
  walk_of_none (next?_eq_none_iff.2 h)

/-- The outermost boxes, written again, and what is left over are all of the bytes. -/
theorem flatMap_encode_append_leftover (data : Bytes) :
    (walk [] data).flatMap Found.encode ++ leftover data = data := by
  induction data using leftover.induct with
  | case1 data h => rw [walk_of_none h, leftover_of_none h, List.flatMap_nil, List.nil_append]
  | case2 data f rest h _ ih =>
    rw [walk_of_some h, leftover_of_some h, if_neg List.not_mem_nil, List.nil_append, List.flatMap_cons,
      List.append_assoc, ih]
    exact (eq_of_next? h).symm

theorem noBox_leftover (data : Bytes) : NoBox (leftover data) := by
  induction data using leftover.induct with
  | case1 data h =>
    rw [leftover_of_none h]
    exact next?_eq_none_iff.1 h
  | case2 data f rest h _ ih => rwa [leftover_of_some h]

/-- A walk goes through the outermost boxes, into each in turn. -/
theorem walk_eq_flatMap (inside : List FourCC) (data : Bytes) :
    walk inside data = (walk [] data).flatMap (Found.within inside) := by
  induction data using leftover.induct with
  | case1 data h => rw [walk_of_none h, walk_of_none h, List.flatMap_nil]
  | case2 data f rest h _ ih =>
    rw [walk_of_some h, walk_of_some h, if_neg List.not_mem_nil, List.nil_append, List.flatMap_cons, ← ih]
    rfl

theorem Found.length_encode (f : Found) : f.encode.length = 8 + f.payload.length := by
  rw [Found.encode, List.length_append, length_header]

theorem length_walk_le (inside : List FourCC) (data : Bytes) : 8 * (walk inside data).length ≤ data.length := by
  induction data using walk.induct with
  | case1 data h =>
    rw [walk_of_none h]
    exact Nat.zero_le _
  | case2 data f rest h _ ihinner ihrest =>
    have hinner : 8 * (if f.type ∈ inside then walk inside f.payload else []).length ≤ f.payload.length := by
      split
      · exact ihinner
      · exact Nat.zero_le _
    have hdata : data.length = 8 + f.payload.length + rest.length := by
      rw [eq_of_next? h, List.length_append, Found.length_encode]
    rw [walk_of_some h, List.length_cons, List.length_append]
    omega

/-- **A walk inverts writing.**  Written boxes, those of the given types with boxes inside, are listed in pre-order and
nothing of what no whole box opens behind them is.  Of any bytes the walk sees the outermost boxes, and behind each that
it enters the boxes inside; written again, the outermost ones lead the bytes up to a rest that no whole box opens.  Each
box that it sees takes eight bytes of its own, which bounds how long it can go on. -/
theorem walk_inverts_writing (inside : List FourCC) :
    (∀ (bs : List Box) (tail : Bytes), SoundAll inside bs → NoBox tail →
      walk inside (encodeAll bs ++ tail) = listingAll bs) ∧
    ∀ data : Bytes, 8 * (walk inside data).length ≤ data.length ∧
      walk inside data = (walk [] data).flatMap (Found.within inside) ∧
      ∃ rest, data = (walk [] data).flatMap Found.encode ++ rest ∧ NoBox rest := by
  refine ⟨fun bs tail hs ht => ?_, fun data => ⟨length_walk_le inside data, walk_eq_flatMap inside data, leftover data,
    (flatMap_encode_append_leftover data).symm, noBox_leftover data⟩⟩
  rw [walk_encodeAll inside bs tail hs, walk_of_noBox ht, List.append_nil]

/-- A box with two boxes inside, the second of which holds none though it could, then a box of a type that is not entered,
and behind them a header whose size runs past the end. -/
theorem walk_inverts_writing_truncated :
    let moof := FourCC.ofChars 'm' 'o' 'o' 'f'
    let traf := FourCC.ofChars 't' 'r' 'a' 'f'
    let free := FourCC.ofChars 'f' 'r' 'e' 'e'
    let forest : List Box := [.node moof [.leaf free [7, 8], .node traf []], .leaf free []]
    let tail : Bytes := [0, 0, 0, 9, 109, 111, 111, 102]
    SoundAll [moof, traf] forest ∧ NoBox tail ∧
      walk [moof, traf] (encodeAll forest ++ tail) =
        [⟨moof, encodeAll [.leaf free [7, 8], .node traf []]⟩, ⟨free, [7, 8]⟩, ⟨traf, []⟩, ⟨free, []⟩] := by
  intro moof traf free forest tail
  have hs : SoundAll [moof, traf] forest :=
    ⟨⟨by decide, by decide, ⟨by decide, by decide⟩, ⟨by decide, by decide, trivial⟩, trivial⟩,
      ⟨by decide, by decide⟩, trivial⟩
  have ht : NoBox tail := by decide
  exact ⟨hs, ht, (walk_inverts_writing [moof, traf]).1 forest tail hs ht⟩

end Box
end Packager

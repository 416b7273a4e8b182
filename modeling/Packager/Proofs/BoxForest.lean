import Packager.Box.Walk
import Packager.Proofs.BigEndian
/-!
# Proofs.BoxForest — a walk lists the boxes that were written

Boxes are written bottom-up and read top-down.  `listingAll` is what a reader should see of a forest, each box with its
payload in pre-order; `walk_encodeAll` says that the walk sees exactly that, for every forest in which the given types,
and no others, hold boxes and every size fits its four bytes (`SoundAll`).  `readsAll_encodeAll` adds that no byte is
left over, at the outermost level or inside a container.
-/
namespace Packager
namespace Box

open Bytes

def type : Box → FourCC
  | leaf t _ => t
  | node t _ => t

/-- What stands behind the header of a box. -/
def payload : Box → Bytes
  | leaf _ p => p
  | node _ cs => encodeAll cs

mutual
/-- A box as a reader sees it: its type and payload, then the boxes inside it. -/
def listing : Box → List Found
  | leaf t p => [⟨t, p⟩]
  | node t cs => ⟨t, encodeAll cs⟩ :: listingAll cs

/-- A forest as a reader sees it, in pre-order. -/
def listingAll : List Box → List Found
  | [] => []
  | b :: bs => listing b ++ listingAll bs
end

mutual
/-- Whether the boxes with boxes inside are those of the types `inside`, and every size fits the header. -/
def Sound (inside : List FourCC) : Box → Prop
  | leaf t p => t ∉ inside ∧ 8 + p.length < 2 ^ 32
  | node t cs => t ∈ inside ∧ 8 + sizeAll cs < 2 ^ 32 ∧ SoundAll inside cs

def SoundAll (inside : List FourCC) : List Box → Prop
  | [] => True
  | b :: bs => Sound inside b ∧ SoundAll inside bs
end

/-- The bytes behind the last complete box of the outermost level. -/
def leftover (data : Bytes) : Bytes :=
  match h : next? data with
  | none => data
  | some (_, rest) =>
    have := (next?_lt h).2
    leftover rest
termination_by data.length

/-- Whether a walk reads its input to the last byte, at the outermost level and inside every container. -/
def ReadsAll (inside : List FourCC) (data : Bytes) : Prop :=
  leftover data = [] ∧ ∀ f ∈ walk inside data, f.type ∈ inside → leftover f.payload = []

/-- Where the first outermost box of a type starts. -/
def position? (wanted : FourCC) (data : Bytes) : Option Nat :=
  match h : next? data with
  | none => none
  | some (found, rest) =>
    have := (next?_lt h).2
    if found.type = wanted then some 0 else (position? wanted rest).map (· + (data.length - rest.length))
termination_by data.length

/-! ## One box -/

theorem size_eq (b : Box) : b.size = 8 + b.payload.length := by
  cases b with
  | leaf t p => simp [size, payload]
  | node t cs => simp [size, payload, length_encodeAll]

theorem encode_eq (b : Box) : b.encode = header b.type b.payload.length ++ b.payload := by
  cases b <;> simp [encode, type, payload]

/-- **The first box of what was written is the box that was written first.** -/
theorem next?_encode (b : Box) (rest : Bytes) (h : b.size < 2 ^ 32) :
    next? (b.encode ++ rest) = some (⟨b.type, b.payload⟩, rest) := by
  rw [size_eq] at h
  have hn : toNat (bigEndian 4 (8 + b.payload.length)) = 8 + b.payload.length := toNat_bigEndian (by omega)
  have he : b.encode ++ rest = bigEndian 4 (8 + b.payload.length) ++ (b.type.bytes ++ (b.payload ++ rest)) := by
    rw [encode_eq, header, List.append_assoc, List.append_assoc]
  rw [he]
  simp only [bigEndian, FourCC.bytes, List.cons_append, List.nil_append] at hn ⊢
  simp only [next?, hn]
  simp

theorem walk_of_none {inside : List FourCC} {data : Bytes} (h : next? data = none) : walk inside data = [] := by
  rw [walk]
  split <;> simp_all

theorem walk_of_some {inside : List FourCC} {data rest : Bytes} {f : Found} (h : next? data = some (f, rest)) :
    walk inside data = f :: ((if f.type ∈ inside then walk inside f.payload else []) ++ walk inside rest) := by
  rw [walk]
  split <;> simp_all

theorem leftover_of_none {data : Bytes} (h : next? data = none) : leftover data = data := by
  rw [leftover]
  split <;> simp_all

theorem leftover_of_some {data rest : Bytes} {f : Found} (h : next? data = some (f, rest)) :
    leftover data = leftover rest := by
  rw [leftover]
  split <;> simp_all

@[simp] theorem walk_nil (inside : List FourCC) : walk inside [] = [] := walk_of_none rfl

@[simp] theorem leftover_nil : leftover [] = [] := leftover_of_none rfl

theorem position?_encode (wanted : FourCC) (b : Box) (rest : Bytes) (h : b.size < 2 ^ 32) :
    position? wanted (b.encode ++ rest) =
      if b.type = wanted then some 0 else (position? wanted rest).map (· + b.size) := by
  have hb : (b.encode ++ rest).length - rest.length = b.size := by
    rw [List.length_append, length_encode, Nat.add_sub_cancel]
  rw [position?]
  split
  · rename_i h'
    rw [next?_encode b rest h] at h'
    cases h'
  · rename_i h'
    rw [next?_encode b rest h] at h'
    cases h'
    rw [hb]

/-! ## Forests -/

theorem Sound.size_lt {inside : List FourCC} {b : Box} (h : Sound inside b) : b.size < 2 ^ 32 := by
  cases b with
  | leaf t p => exact h.2
  | node t cs => exact h.2.1

mutual
theorem walk_encode (inside : List FourCC) : ∀ (b : Box) (rest : Bytes), Sound inside b →
    walk inside (b.encode ++ rest) = listing b ++ walk inside rest
  | leaf t p, rest, h => by
    rw [walk_of_some (next?_encode _ rest h.size_lt)]
    simp [type, payload, listing, h.1]
  | node t cs, rest, h => by
    have hc := walk_encodeAll inside cs [] h.2.2
    rw [List.append_nil, walk_nil, List.append_nil] at hc
    rw [walk_of_some (next?_encode _ rest h.size_lt)]
    simp [type, payload, listing, h.1, hc]

/-- **A walk over written boxes lists them in pre-order**, and goes on with what follows them. -/
theorem walk_encodeAll (inside : List FourCC) : ∀ (bs : List Box) (rest : Bytes), SoundAll inside bs →
    walk inside (encodeAll bs ++ rest) = listingAll bs ++ walk inside rest
  | [], rest, _ => rfl
  | b :: bs, rest, h => by
    rw [encodeAll, List.append_assoc, walk_encode inside b _ h.1, walk_encodeAll inside bs rest h.2, listingAll,
      List.append_assoc]
end

theorem leftover_encodeAll (inside : List FourCC) : ∀ (bs : List Box) (rest : Bytes), SoundAll inside bs →
    leftover (encodeAll bs ++ rest) = leftover rest
  | [], rest, _ => rfl
  | b :: bs, rest, h => by
    rw [encodeAll, List.append_assoc, leftover_of_some (next?_encode b _ h.1.size_lt),
      leftover_encodeAll inside bs rest h.2]

mutual
theorem leftover_of_mem_listing {inside : List FourCC} : ∀ {b : Box}, Sound inside b →
    ∀ f ∈ listing b, f.type ∈ inside → leftover f.payload = []
  | leaf t p, h, f, hf, ht => by
    rw [listing, List.mem_singleton] at hf
    subst hf
    exact absurd ht h.1
  | node t cs, h, f, hf, ht => by
    rw [listing, List.mem_cons] at hf
    rcases hf with rfl | hf
    · have hc := leftover_encodeAll inside cs [] h.2.2
      rwa [List.append_nil, leftover_nil] at hc
    · exact leftover_of_mem_listingAll h.2.2 f hf ht

theorem leftover_of_mem_listingAll {inside : List FourCC} : ∀ {bs : List Box}, SoundAll inside bs →
    ∀ f ∈ listingAll bs, f.type ∈ inside → leftover f.payload = []
  | [], _, f, hf, _ => by cases hf
  | b :: bs, h, f, hf, ht => by
    rw [listingAll, List.mem_append] at hf
    rcases hf with hf | hf
    · exact leftover_of_mem_listing h.1 f hf ht
    · exact leftover_of_mem_listingAll h.2 f hf ht
end

/-- **A walk over a written forest reads every byte of it.** -/
theorem readsAll_encodeAll {inside : List FourCC} {bs : List Box} (h : SoundAll inside bs) :
    ReadsAll inside (encodeAll bs) := by
  have hl := leftover_encodeAll inside bs [] h
  have hw := walk_encodeAll inside bs [] h
  rw [List.append_nil, leftover_nil] at hl
  rw [List.append_nil, walk_nil, List.append_nil] at hw
  refine ⟨hl, fun f hf ht => ?_⟩
  rw [hw] at hf
  exact leftover_of_mem_listingAll h f hf ht

/-- **A box of a written forest is found by its type.** -/
theorem find?_encodeAll {inside : List FourCC} {bs : List Box} (h : SoundAll inside bs) {wanted : FourCC} {f : Found}
    (hf : (listingAll bs).find? (·.type = wanted) = some f) : find? inside wanted (encodeAll bs) = some f.payload := by
  have hw := walk_encodeAll inside bs [] h
  rw [List.append_nil, walk_nil, List.append_nil] at hw
  rw [find?, hw]
  simp only [hf]

end Box
end Packager

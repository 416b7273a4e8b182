import Mathlib.Data.List.Forall2
import Packager.Proofs.WholeBoxes
/-!
# Proofs.TypeScan — what a scan for the letters of a type answers

A scan stops where the letters of the type stand first, whatever they are there, and takes the four bytes before them for
the size of a box (`scan?_of_first`).  Where letters can stand is read off the shape of the bytes, in which each byte is
known or open: `places` lists all that the known bytes leave, and letters within bytes of a shape stand at one of these
(`Covers.mem_places`).
-/
namespace Packager
namespace Bytes

/-- The place at which a word stands first in some bytes. -/
structure FirstAt (word data : Bytes) (k : Nat) : Prop where
  stands : word <+: data.drop k
  first : ∀ j < k, ¬word <+: data.drop j

/-! ## Shapes -/

/-- Bytes of which some are known and the others open. -/
abbrev Shape := List (Option UInt8)

/-- The shape of bytes that are all known. -/
def known (bs : Bytes) : Shape := bs.map some

/-- The shape of so many bytes of which none is known. -/
def unknown (n : Nat) : Shape := List.replicate n none

/-- Whether bytes are of a shape: as many as it has, each one open or the one that is known. -/
def Covers (shape : Shape) (bs : Bytes) : Prop := List.Forall₂ (fun o b => o = none ∨ o = some b) shape bs

instance (shape : Shape) (bs : Bytes) : Decidable (Covers shape bs) :=
  inferInstanceAs (Decidable (List.Forall₂ _ _ _))

/-- The places at which a word can stand in bytes of a shape, none of it behind them. -/
def places (word : Bytes) (shape : Shape) : List Nat :=
  (List.range (shape.length + 1 - word.length)).filter fun k => Covers ((shape.drop k).take word.length) word

theorem covers_known : ∀ bs : Bytes, Covers (known bs) bs
  | [] => .nil
  | _ :: bs => .cons (.inr rfl) (covers_known bs)

theorem covers_unknown : ∀ {n : Nat} {bs : Bytes}, bs.length = n → Covers (unknown n) bs
  | _, [], rfl => .nil
  | _, _ :: _, rfl => .cons (.inl rfl) (covers_unknown rfl)

theorem Covers.append {shape shape' : Shape} {bs bs' : Bytes} (h : Covers shape bs) (h' : Covers shape' bs') :
    Covers (shape ++ shape') (bs ++ bs') :=
  List.rel_append h h'

/-- **A word that stands within bytes of a shape stands at a place that the shape leaves for it.** -/
theorem Covers.mem_places {shape : Shape} {bs word rest : Bytes} {k : Nat} (h : Covers shape bs)
    (hk : k + word.length ≤ shape.length) (hs : word <+: (bs ++ rest).drop k) : k ∈ places word shape := by
  have hlen : shape.length = bs.length := h.length_eq
  have hword : (bs.drop k).take word.length = word := by
    have hw := List.prefix_iff_eq_take.1 hs
    rw [List.drop_append_of_le_length (by omega), List.take_append_of_le_length (by rw [List.length_drop]; omega)] at hw
    exact hw.symm
  have hcovers := List.forall₂_take word.length (List.forall₂_drop k h)
  rw [hword] at hcovers
  exact List.mem_filter.2 ⟨List.mem_range.2 (by omega), decide_eq_true hcovers⟩

end Bytes

namespace Box

open Bytes

/-- The shape of the size and the type that open a box of less than `2 ^ 24` bytes. -/
def headerShape (type : FourCC) : Shape := known [0] ++ unknown 3 ++ known type.bytes

theorem covers_header (b : Box) (h : b.size < 2 ^ 24) :
    Covers (headerShape b.type) (header b.type b.payload.length) := by
  rw [size_eq] at h
  have hfirst : UInt8.ofNat ((8 + b.payload.length) >>> (8 * 3)) = 0 := by
    rw [Nat.shiftRight_eq_div_pow, Nat.div_eq_of_lt h]
    rfl
  have hsize : bigEndian 4 (8 + b.payload.length) = [0] ++ bigEndian 3 (8 + b.payload.length) := by
    rw [bigEndian, hfirst]
    rfl
  rw [header, hsize]
  exact ((covers_known [0]).append (covers_unknown (length_bigEndian 3 _))).append (covers_known _)

/-- The letters of its type stand four bytes into a written box. -/
theorem letters_encode (b : Box) : b.type.bytes <+: b.encode.drop 4 := by
  rw [encode_eq, header, List.append_assoc, List.drop_left' (length_bigEndian 4 _)]
  exact List.prefix_append _ _

/-! ## Scanning -/

theorem scanFrom_cons {wanted : FourCC} {before rest : Bytes} {b : UInt8} (h : ¬wanted.bytes <+: b :: rest) :
    scanFrom wanted before (b :: rest) = scanFrom wanted (b :: before) rest := by
  rw [scanFrom.eq_def wanted before (b :: rest)]
  exact if_neg fun hp => h (List.isPrefixOf_iff_prefix.1 hp)

/-- A scan passes over bytes in which the letters of the type begin nowhere. -/
theorem scanFrom_append (wanted : FourCC) : ∀ front before back : Bytes,
    (∀ j < front.length, ¬wanted.bytes <+: (front ++ back).drop j) →
    scanFrom wanted before (front ++ back) = scanFrom wanted (front.reverse ++ before) back
  | [], _, _, _ => rfl
  | b :: front, before, back, h => by
    have hhead : ¬wanted.bytes <+: b :: (front ++ back) := h 0 (Nat.succ_pos _)
    have htail : ∀ j < front.length, ¬wanted.bytes <+: (front ++ back).drop j := fun j hj =>
      h (j + 1) (Nat.succ_lt_succ hj)
    rw [List.cons_append, scanFrom_cons hhead, scanFrom_append wanted front (b :: before) back htail, List.reverse_cons,
      List.append_assoc]
    rfl

/-- At the letters of the type a scan takes the four bytes before them for the size of a box. -/
theorem scanFrom_letters (wanted : FourCC) {word : Bytes} (before rest : Bytes) (hw : word.length = 4) :
    scanFrom wanted (word.reverse ++ before) (wanted.bytes ++ rest) =
      (next? (word ++ (wanted.bytes ++ rest))).map (·.1.payload) := by
  obtain ⟨s0, s1, s2, s3, rfl⟩ := List.length_eq_four.1 hw
  obtain ⟨a, b, c, d⟩ := wanted
  have hp : [a, b, c, d].isPrefixOf (a :: b :: c :: d :: rest) = true :=
    List.isPrefixOf_iff_prefix.2 (List.prefix_append [a, b, c, d] rest)
  simp only [FourCC.bytes, List.cons_append, List.nil_append, List.reverse_cons, List.reverse_nil, scanFrom, hp,
    if_true, next?, List.drop_succ_cons, List.drop_zero]
  split <;> rfl

/-- **A scan answers with the box whose type is where the letters stand first**, when a whole one is there. -/
theorem scan?_of_first {wanted : FourCC} {front back : Bytes}
    (h : FirstAt wanted.bytes (front ++ back) (front.length + 4)) :
    scan? wanted (front ++ back) = (next? back).map (·.1.payload) := by
  obtain ⟨rest, hrest⟩ := h.stands
  rw [← List.drop_drop, List.drop_left] at hrest
  have hback : back = back.take 4 ++ (wanted.bytes ++ rest) := by rw [hrest, List.take_append_drop]
  have hword : (back.take 4).length = 4 := by
    have hlen := congrArg List.length hrest
    simp only [FourCC.bytes, List.length_append, List.length_cons, List.length_drop] at hlen
    rw [List.length_take]
    omega
  generalize back.take 4 = word at hback hword
  subst hback
  have hskip := scanFrom_append wanted (front ++ word) [] (wanted.bytes ++ rest) fun j hj => by
    rw [List.append_assoc]
    exact h.first j (by rwa [List.length_append, hword] at hj)
  rw [scan?, ← List.append_assoc, hskip, List.append_nil, List.reverse_append]
  exact scanFrom_letters wanted front.reverse rest hword

end Box
end Packager

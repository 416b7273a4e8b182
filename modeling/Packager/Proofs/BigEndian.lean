import Mathlib.Data.Nat.Basic
import Mathlib.Tactic.Ring
import Packager.Bytes
/-!
# Proofs.BigEndian — reading back the numbers that were written

`toNat` undoes `bigEndian` as long as the number fits the width (`toNat_bigEndian`), `bigEndian` undoes `toNat` at the
width of the bytes (`bigEndian_toNat`), and `readAt` finds a field behind any bytes of the length of its offset
(`readAt_field`).  The layout theorems of boxes and fragments read every field through these.
-/
namespace Packager
namespace Bytes

@[simp] theorem toNat_nil : toNat [] = 0 := rfl

theorem foldl_toNat : ∀ (bs : Bytes) (n : Nat),
    bs.foldl (fun acc b => acc * 256 + b.toNat) n = n * 256 ^ bs.length + toNat bs
  | [], n => by simp
  | b :: bs, n => by
    have h0 : toNat (b :: bs) = b.toNat * 256 ^ bs.length + toNat bs := by
      rw [toNat, List.foldl_cons, Nat.zero_mul, Nat.zero_add, foldl_toNat bs]
    rw [List.foldl_cons, foldl_toNat bs, h0, List.length_cons, Nat.pow_succ]
    ring

theorem toNat_cons (b : UInt8) (bs : Bytes) : toNat (b :: bs) = b.toNat * 256 ^ bs.length + toNat bs := by
  have h := foldl_toNat (b :: bs) 0
  rwa [List.foldl_cons, Nat.zero_mul, Nat.zero_add, Nat.zero_mul, Nat.zero_add, foldl_toNat, eq_comm] at h

theorem shiftRight_bytes (n k : Nat) : n >>> (8 * k) = n / 256 ^ k := by
  rw [Nat.shiftRight_eq_div_pow, Nat.pow_mul]

/-- **What was written in `k` bytes reads back up to a multiple of `256 ^ k`.** -/
theorem toNat_bigEndian_mod : ∀ k n : Nat, toNat (bigEndian k n) = n % 256 ^ k
  | 0, n => by simp [bigEndian, Nat.mod_one]
  | k + 1, n => by
    rw [bigEndian, shiftRight_bytes, toNat_cons, length_bigEndian, toNat_bigEndian_mod k n, UInt8.toNat_ofNat',
      Nat.pow_succ 256, Nat.mod_mul, Nat.mul_comm, Nat.add_comm]

theorem toNat_bigEndian {k n : Nat} (h : n < 256 ^ k) : toNat (bigEndian k n) = n := by
  rw [toNat_bigEndian_mod, Nat.mod_eq_of_lt h]

theorem toNat_lt : ∀ bs : Bytes, toNat bs < 256 ^ bs.length
  | [] => Nat.one_pos
  | b :: bs => by
    have hb := b.toNat_lt
    have hbs := toNat_lt bs
    calc toNat (b :: bs) = b.toNat * 256 ^ bs.length + toNat bs := toNat_cons b bs
      _ < b.toNat * 256 ^ bs.length + 256 ^ bs.length := Nat.add_lt_add_left hbs _
      _ = (b.toNat + 1) * 256 ^ bs.length := (Nat.succ_mul _ _).symm
      _ ≤ 256 * 256 ^ bs.length := Nat.mul_le_mul_right _ hb
      _ = 256 ^ (b :: bs).length := (Nat.pow_succ').symm

theorem toNat_inj : ∀ {bs cs : Bytes}, bs.length = cs.length → toNat bs = toNat cs → bs = cs
  | [], [], _, _ => rfl
  | b :: bs, c :: cs, hlen, h => by
    have hl : bs.length = cs.length := Nat.succ.inj hlen
    rw [toNat_cons, toNat_cons, ← hl] at h
    have hb := toNat_lt bs
    have hc := hl ▸ toNat_lt cs
    have hhead : b.toNat = c.toNat := by
      have := congrArg (· / 256 ^ bs.length) h
      simpa [Nat.mul_comm, Nat.mul_add_div, Nat.div_eq_of_lt hb, Nat.div_eq_of_lt hc] using this
    rw [hhead] at h
    rw [UInt8.toNat_inj.1 hhead, toNat_inj hl (Nat.add_left_cancel h)]

/-- A number in 16.16 fixed point is the number and two zeros. -/
theorem bigEndian_fixed (n : Nat) : bigEndian 4 (n * 65536) = bigEndian 2 n ++ zeros 2 := by
  refine toNat_inj (by simp) ?_
  have hbehind : toNat (bigEndian 2 n ++ zeros 2) = toNat (bigEndian 2 n) * 256 ^ 2 + toNat (zeros 2) := by
    rw [toNat, List.foldl_append, foldl_toNat]
    rfl
  have hzeros : toNat (zeros 2) = 0 := rfl
  rw [hbehind, hzeros, toNat_bigEndian_mod, toNat_bigEndian_mod]
  omega

/-- **A byte string is how the number it stands for is written.** -/
theorem bigEndian_toNat (bs : Bytes) : bigEndian bs.length (toNat bs) = bs :=
  toNat_inj (length_bigEndian _ _) (toNat_bigEndian (toNat_lt bs))

@[simp] theorem toNat_uint16 (n : UInt16) : toNat (uint16 n) = n.toNat :=
  toNat_bigEndian n.toNat_lt

@[simp] theorem toNat_uint32 (n : UInt32) : toNat (uint32 n) = n.toNat :=
  toNat_bigEndian n.toNat_lt

@[simp] theorem toNat_uint64 (n : UInt64) : toNat (uint64 n) = n.toNat :=
  toNat_bigEndian n.toNat_lt

@[simp] theorem length_uint16 (n : UInt16) : (uint16 n).length = 2 := length_bigEndian 2 _

@[simp] theorem length_uint32 (n : UInt32) : (uint32 n).length = 4 := length_bigEndian 4 _

@[simp] theorem length_uint64 (n : UInt64) : (uint64 n).length = 8 := length_bigEndian 8 _

theorem slice_middle (offset width : Nat) (before field after : Bytes) (hb : before.length = offset)
    (hf : field.length = width) : slice offset width (before ++ (field ++ after)) = field := by
  subst hb hf
  simp [slice]

/-- **A field is found behind the bytes that precede it.** -/
theorem readAt_field (width offset : Nat) (before field after : Bytes) (hb : before.length = offset)
    (hf : field.length = width) : readAt width offset (before ++ (field ++ after)) = some (toNat field) := by
  simp only [readAt, slice_middle offset width before field after hb hf, hf, if_true]

theorem readUInt32_field (offset : Nat) (before : Bytes) (n : UInt32) (after : Bytes) (h : before.length = offset) :
    readUInt32 offset (before ++ (uint32 n ++ after)) = some n.toNat := by
  have hr := readAt_field 4 offset before (uint32 n) after h (length_uint32 n)
  rwa [toNat_uint32] at hr

end Bytes
end Packager

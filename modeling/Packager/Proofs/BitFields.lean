import Packager.Proofs.BigEndian
/-!
# Proofs.BitFields — bytes as bits, the highest first

Formats that pack several numbers into a word count in bits, not bytes.  `Bits.write` is a number in so many bits and
`Bytes.bits` what a byte string looks like bit by bit; a number of `8 * k` bits is the same either way (`bits_bigEndian`).
A word that was put together from shifted parts is the parts side by side (`write_add`), and `Bits.read?` takes a part off
again (`read?_write`).
-/
namespace Packager
namespace Bits

/-- The low `width` bits of a number, the highest first. -/
def write : Nat → Nat → List Bool
  | 0, _ => []
  | width + 1, n => n.testBit width :: write width n

/-- The number that bits stand for, the highest first. -/
def toNat (bits : List Bool) : Nat := bits.foldl (fun n b => n * 2 + b.toNat) 0

/-- Takes a number of `width` bits off the front, when they are all there. -/
def read? (width : Nat) (bits : List Bool) : Option (Nat × List Bool) :=
  if width ≤ bits.length then some (toNat (bits.take width), bits.drop width) else none

/-- The number in the `width` bits from `start` on. -/
def readAt (start width : Nat) (bits : List Bool) : Nat := toNat ((bits.drop start).take width)

@[simp] theorem length_write (width n : Nat) : (write width n).length = width := by
  induction width with
  | zero => rfl
  | succ width ih => rw [write, List.length_cons, ih]

theorem foldl_toNat (bits : List Bool) (n : Nat) :
    bits.foldl (fun n b => n * 2 + b.toNat) n = n * 2 ^ bits.length + toNat bits := by
  induction bits generalizing n with
  | nil => simp [toNat]
  | cons b bits ih =>
    have h0 : toNat (b :: bits) = b.toNat * 2 ^ bits.length + toNat bits := by
      rw [toNat, List.foldl_cons, ih, Nat.zero_mul, Nat.zero_add]
    rw [List.foldl_cons, ih, h0, List.length_cons, Nat.pow_succ]
    ring

theorem toNat_append (front back : List Bool) : toNat (front ++ back) = toNat front * 2 ^ back.length + toNat back := by
  rw [toNat, List.foldl_append, foldl_toNat]
  rfl

/-- **What was written in so many bits reads back up to a multiple of their power of two.** -/
theorem toNat_write (width n : Nat) : toNat (write width n) = n % 2 ^ width := by
  induction width with
  | zero => rw [Nat.pow_zero, Nat.mod_one]; rfl
  | succ width ih =>
    have hcons : write (width + 1) n = [n.testBit width] ++ write width n := rfl
    have hbit : toNat [n.testBit width] = n / 2 ^ width % 2 := by
      rw [← Nat.toNat_testBit]
      simp [toNat]
    rw [hcons, toNat_append, hbit, ih, length_write, Nat.mod_pow_succ, Nat.mul_comm, Nat.add_comm]

/-- A number depends on its width in bits alone. -/
theorem write_congr {m n : Nat} : ∀ {width : Nat}, (∀ i < width, m.testBit i = n.testBit i) → write width m = write width n
  | 0, _ => rfl
  | width + 1, h => by
    rw [write, write, h width (Nat.lt_succ_self _), write_congr fun i hi => h i (Nat.lt_succ_of_lt hi)]

theorem write_mod (width n : Nat) : write width (n % 2 ^ width) = write width n :=
  write_congr fun i hi => by simp [Nat.testBit_mod_two_pow, hi]

/-- The front of a number is the number shifted down. -/
theorem write_shiftRight (front back n : Nat) : write (front + back) n = write front (n >>> back) ++ write back n := by
  induction front with
  | zero => rw [Nat.zero_add, write, List.nil_append]
  | succ front ih =>
    rw [Nat.succ_add, write, write, ih, Nat.testBit_shiftRight, Nat.add_comm back front]
    rfl

/-- **A part shifted up and one that lies below it stand side by side.** -/
theorem write_add (front back m : Nat) {n : Nat} (h : n < 2 ^ back) :
    write (front + back) (m <<< back + n) = write front m ++ write back n := by
  have hshift : (m <<< back + n) >>> back = m := by
    rw [Nat.shiftRight_eq_div_pow, Nat.shiftLeft_eq, Nat.mul_comm, Nat.mul_add_div (Nat.two_pow_pos back),
      Nat.div_eq_of_lt h, Nat.add_zero]
  have hlow : write back (m <<< back + n) = write back n := by
    rw [← write_mod, Nat.shiftLeft_eq, Nat.mul_comm, Nat.mul_add_mod, Nat.mod_eq_of_lt h]
  rw [write_shiftRight, hshift, hlow]

theorem read?_write (width n : Nat) (rest : List Bool) :
    read? width (write width n ++ rest) = some (n % 2 ^ width, rest) := by
  have hlen := length_write width n
  rw [read?, if_pos (by rw [List.length_append]; omega), List.take_left' hlen, List.drop_left' hlen, toNat_write]

theorem read?_write_of_lt {width n : Nat} (h : n < 2 ^ width) (rest : List Bool) :
    read? width (write width n ++ rest) = some (n, rest) := by
  rw [read?_write, Nat.mod_eq_of_lt h]

theorem readAt_append {front : List Bool} {length : Nat} (h : front.length = length) (start width : Nat)
    (bits : List Bool) : readAt (length + start) width (front ++ bits) = readAt start width bits := by
  rw [readAt, readAt, ← h, List.drop_append, List.drop_of_length_le (by omega), List.nil_append, Nat.add_sub_cancel_left]

theorem readAt_write {width n : Nat} (h : n < 2 ^ width) (rest : List Bool) :
    readAt 0 width (write width n ++ rest) = n := by
  rw [readAt, List.drop_zero, List.take_left' (length_write width n), toNat_write, Nat.mod_eq_of_lt h]

end Bits

namespace Bytes

/-- The bits of a byte string, the highest of each byte first. -/
def bits (bs : Bytes) : List Bool := bs.flatMap fun b => Bits.write 8 b.toNat

theorem bits_bigEndian (k n : Nat) : bits (bigEndian k n) = Bits.write (8 * k) n := by
  induction k with
  | zero => rfl
  | succ k ih =>
    have hbyte : Bits.write 8 (UInt8.ofNat (n >>> (8 * k))).toNat = Bits.write 8 (n >>> (8 * k)) := by
      rw [UInt8.toNat_ofNat']
      exact Bits.write_mod 8 _
    have hbits : bits (bigEndian (k + 1) n) =
        Bits.write 8 (UInt8.ofNat (n >>> (8 * k))).toNat ++ bits (bigEndian k n) := rfl
    rw [hbits, hbyte, ih, ← Bits.write_shiftRight, Nat.mul_succ, Nat.add_comm]

end Bytes
end Packager

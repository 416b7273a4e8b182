/-!
# Bytes — byte strings and big-endian numbers

Every file and every elementary stream is a list of bytes.  `bigEndian k n` writes the low `8 * k` bits of `n` as `k`
bytes, most significant first, and `toNat` reads such a string back; the word writers `uint8` to `uint64` are its
instances at the machine widths.
-/
namespace Packager

/-- A byte string. -/
abbrev Bytes := List UInt8

namespace Bytes

/-- The low `8 * k` bits of `n` as `k` bytes, most significant first. -/
def bigEndian : Nat → Nat → Bytes
  | 0, _ => []
  | k + 1, n => UInt8.ofNat (n >>> (8 * k)) :: bigEndian k n

/-- The number a byte string stands for, most significant byte first. -/
def toNat (bs : Bytes) : Nat :=
  bs.foldl (fun acc b => acc * 256 + b.toNat) 0

def uint8 (n : UInt8) : Bytes := [n]
def uint16 (n : UInt16) : Bytes := bigEndian 2 n.toNat
def uint32 (n : UInt32) : Bytes := bigEndian 4 n.toNat
def uint64 (n : UInt64) : Bytes := bigEndian 8 n.toNat

/-- A run of `n` zero bytes. -/
def zeros (n : Nat) : Bytes := List.replicate n 0

/-- The part of `data` from `start` on, `length` bytes long at most. -/
def slice (start length : Nat) (data : Bytes) : Bytes := (data.drop start).take length

/-- The `width`-byte number at `offset`, when all its bytes are there. -/
def readAt (width offset : Nat) (data : Bytes) : Option Nat :=
  let word := slice offset width data
  if word.length = width then some (toNat word) else none

def readUInt32 (offset : Nat) (data : Bytes) : Option Nat := readAt 4 offset data
def readUInt64 (offset : Nat) (data : Bytes) : Option Nat := readAt 8 offset data

@[simp] theorem length_bigEndian (k n : Nat) : (bigEndian k n).length = k := by
  induction k with
  | zero => rfl
  | succ k ih => simp [bigEndian, ih]

@[simp] theorem length_zeros (n : Nat) : (zeros n).length = n := by simp [zeros]

end Bytes
end Packager

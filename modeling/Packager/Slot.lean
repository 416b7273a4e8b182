import Packager.Failure
/-!
# Slot — a buffer that holds one finished segment

A slot has a fixed capacity and carries, with the bytes of a segment, the sequence number, the start and the duration
that it is published under.  It is reused: `clear` empties it, and what was stored before shows again only when the
length is set over it.
-/
namespace Packager

/-- A buffer of fixed capacity with the segment in it. -/
structure Slot where
  capacity : Nat
  /-- The bytes stored so far; those after them, up to the capacity, are zero. -/
  stored : Bytes
  /-- The number of bytes that belong to the segment. -/
  length : Nat
  sequence : Nat
  /-- Start of the segment in ticks. -/
  timestamp : Nat
  /-- Duration of the segment in ticks. -/
  duration : Nat
  deriving DecidableEq, Repr

namespace Slot

/-- The usual capacity, eight mebibytes. -/
def defaultCapacity : Nat := 8 * 1024 * 1024

def empty (capacity : Nat) : Slot := ⟨capacity, [], 0, 0, 0, 0⟩

/-- The first `n` bytes of the storage. -/
def front (s : Slot) (n : Nat) : Bytes := (s.stored ++ Bytes.zeros (n - s.stored.length)).take n

/-- The bytes of the segment. -/
def data (s : Slot) : Bytes := s.front s.length

/-- Whether the slot holds nothing. -/
def isEmpty (s : Slot) : Bool := s.length == 0 && s.sequence == 0 && s.timestamp == 0

/-- Declares how many bytes of the storage belong to the segment. -/
def setLength (s : Slot) (length : Nat) : Except Failure Slot :=
  if s.capacity < length then .error (.overflow length s.capacity) else .ok { s with length }

/-- Writes `bytes` over the storage at an offset. -/
def overwrite (s : Slot) (offset : Nat) (bytes : Bytes) : Slot :=
  { s with stored := s.front offset ++ bytes ++ s.stored.drop (offset + bytes.length) }

/-- Replaces the segment by `bytes`. -/
def fill (s : Slot) (bytes : Bytes) : Except Failure Slot :=
  if s.capacity < bytes.length then .error (.overflow bytes.length s.capacity)
  else .ok { s.overwrite 0 bytes with length := bytes.length }

/-- Puts a segment with all that it is published under into the slot. -/
def load (s : Slot) (bytes : Bytes) (sequence timestamp duration : Nat) : Except Failure Slot := do
  let s ← s.fill bytes
  return { s with sequence, timestamp, duration }

def clear (s : Slot) : Slot := { s with length := 0, sequence := 0, timestamp := 0, duration := 0 }

/-- Writes the segment to a file; the slot stays as it is. -/
def writeTo {m : Type → Type} (disk : Disk m) (s : Slot) (path : Path) : m (Except IoError Unit) :=
  disk.writeFile path s.data

theorem data_fill {s t : Slot} {bytes : Bytes} (h : s.fill bytes = .ok t) : t.data = bytes := by
  unfold fill at h
  split at h
  · cases h
  · injection h with h
    subst h
    simp [data, front, overwrite]

end Slot
end Packager

import Packager.Fragment
/-!
# Track.OpenFragment — the samples that are not yet written

The open fragment of a track grows sample by sample.  Its end, the start plus the duration, is where the next sample is
due; the last sample can still be stretched or given its real duration.
-/
namespace Packager

/-- The samples of a fragment in the making. -/
structure OpenFragment where
  samples : List Sample
  /-- Tick of the first sample. -/
  start : Nat
  /-- Ticks from the first sample to the end of the last one. -/
  duration : Nat
  deriving DecidableEq, Repr

namespace OpenFragment

def empty : OpenFragment := ⟨[], 0, 0⟩

def isEmpty (f : OpenFragment) : Bool := f.samples.isEmpty

/-- The longest duration that a sample can have. -/
def longest : Nat := UInt32.size - 1

/-- Appends a sample; the first one sets where the fragment starts. -/
def push (f : OpenFragment) (start : Nat) (sample : Sample) : OpenFragment :=
  if f.isEmpty then ⟨[sample], start, sample.duration.toNat⟩
  -- a sum without a bound, as are those below: in 64 bits a duration, or the end of a fragment, wraps around or stops a
  -- build that checks it from 2^64 ticks on
  else { f with samples := f.samples ++ [sample], duration := f.duration + sample.duration.toNat }

/-- Stretches the last sample so that the fragment ends at `next`, when that is later and the sample can hold it. -/
def bridge? (f : OpenFragment) (next : Nat) : Option OpenFragment :=
  match f.samples.getLast? with
  | none => none
  | some last =>
    let gap := next - (f.start + f.duration)
    if gap = 0 ∨ longest < last.duration.toNat + gap then none
    else
      some { f with
        samples := f.samples.dropLast ++ [{ last with duration := .ofNat (last.duration.toNat + gap) }]
        duration := f.duration + gap }

/-- Gives the last sample a duration; what does not fit the sample is cut off there. -/
def setLast (f : OpenFragment) (duration : Nat) : OpenFragment :=
  match f.samples.getLast? with
  | none => f
  | some last =>
    { f with
      samples := f.samples.dropLast ++ [{ last with duration := .ofNat (min duration longest) }]
      duration := f.duration - last.duration.toNat + duration }

/-- Whether the fragment is as long as a segment should be. -/
def reaches (f : OpenFragment) (target : Nat) : Bool := !f.isEmpty && target ≤ f.duration

end OpenFragment
end Packager

import Packager.Data
import Packager.Number.Literal
/-!
# Control.Number — the numbers of control events

Control events come as JSON.  A number of theirs that is an integer of 64 bits, with a sign or without one, is kept as
it is; any other becomes a double.  Its digits are gathered while they fit 64 bits and rounded once, and each step that
moves the point rounds again, so the double need not be the nearest one.
-/
namespace Packager

namespace Binary64

/-- A double as a quotient of natural numbers; its sign is left aside, and only finite doubles have one. -/
def quotient : Binary64 → Nat × Nat
  | finite _ m e => if 0 ≤ e then (m <<< e.toNat, 1) else (m, 1 <<< (-e).toNat)
  | _ => (0, 1)

/-- The greatest power of ten that is a double, by its exponent. -/
def greatestPower : Nat := 308

/-- The double nearest to a power of ten. -/
def powerOfTen (k : Nat) : Binary64 := nearest false (Nat.pow 10 k) 1

/-- A double times a power of ten, rounded. -/
def raise (negative : Bool) (x : Binary64) (k : Nat) : Binary64 :=
  let (a, b) := x.quotient
  let (c, d) := (powerOfTen k).quotient
  nearest negative (a * c) (b * d)

/-- A double divided by a power of ten, rounded. -/
def lower (negative : Bool) (x : Binary64) (k : Nat) : Binary64 :=
  let (a, b) := x.quotient
  let (c, d) := (powerOfTen k).quotient
  nearest negative (a * d) (b * c)

/-- A double divided by a power of ten of any size, in steps that each divide by a power that is a double.  Once nothing
is left there are no more steps. -/
def lowerInSteps (negative : Bool) (x : Binary64) (k : Nat) : Binary64 :=
  if k ≤ greatestPower then x.lower negative k
  else if x.quotient.1 = 0 then x
  else lowerInSteps negative (x.lower negative greatestPower) (k - greatestPower)
termination_by k
decreasing_by simp only [greatestPower] at *; omega

/-- The double that a significand and a power of ten make: one rounding for the significand, then one for each step. -/
def ofParts (negative : Bool) (significand : Nat) (exponent : Int) : Binary64 :=
  let x := nearest negative significand 1
  if significand = 0 then x
  else if exponent < 0 then x.lowerInSteps negative (-exponent).toNat
  else if exponent ≤ greatestPower then x.raise negative exponent.toNat
  else infinite negative

end Binary64

namespace ControlNumber

/-- Puts digits behind a significand while it fits 64 bits; the answer also counts the digits that are left out. -/
def gather (significand : Nat) : List Char → Nat × Nat
  | [] => (significand, 0)
  | c :: cs =>
    let longer := significand * 10 + Literal.digitValue c
    if longer < UInt64.size then gather longer cs else (significand, cs.length + 1)

/-- The double of a numeral: its sign, the digits before and after its point, and its power of ten. -/
def double (negative : Bool) (whole places : List Char) (power : Int) : Binary64 :=
  let (significand, wholeLeft) := gather 0 whole
  let (significand, placesLeft) := gather significand places
  .ofParts negative significand (wholeLeft - (places.length - placesLeft : Nat) + power)

/-- An integer of 64 bits, with a sign or without one, as itself; a zero with a sign is none. -/
def integer? (negative : Bool) (magnitude : Nat) : Option Int :=
  if negative then if 0 < magnitude ∧ magnitude ≤ UInt64.size / 2 then some (-magnitude) else none
  else if magnitude < UInt64.size then some magnitude
  else none

/-- Reads a number. -/
def number : Reader Data := do
  let negative := (← Reader.optional (Reader.exactly "-")).isSome
  let whole ← Reader.run1 Char.isDigit
  let places ← Reader.optional (do Reader.exactly "."; Reader.run1 Char.isDigit)
  let power ← Reader.optional Literal.exponent
  let plain := if places.isSome || power.isSome then none else integer? negative (Literal.digitsValue 10 whole)
  return plain.elim (.float (double negative whole (places.getD []) (power.getD 0))) .int

end ControlNumber

/-- The value of a number in a control event. -/
def Data.ofNumber? (text : String) : Option Data := ControlNumber.number.whole text.toList

end Packager

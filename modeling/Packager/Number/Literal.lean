import Packager.Number.Binary64
import Packager.Text.Reader
/-!
# Number.Literal — numbers as a user types them

A number may start with a sign of either kind; nothing may stand before or after it.  A floating-point number may
leave out the digits on one side of its point, and may be an infinity or no number in letters of either case.
-/
namespace Packager

namespace Literal

/-- The value of a digit, in bases up to sixteen. -/
def digitValue (c : Char) : Nat :=
  if c.isDigit then c.toNat - '0'.toNat else c.toLower.toNat - 'a'.toNat + 10

def isHexDigit (c : Char) : Bool :=
  c.isDigit || ('a' ≤ c && c ≤ 'f') || ('A' ≤ c && c ≤ 'F')

/-- The number that digits of a base stand for. -/
def digitsValue (base : Nat) (digits : List Char) : Nat :=
  digits.foldl (fun n c => n * base + digitValue c) 0

/-- A sign; the answer is whether it is a minus. -/
def sign : Reader Bool :=
  (do Reader.exactly "-"; return true) <|> (do let _ ← Reader.optional (Reader.exactly "+"); return false)

/-- An integer with or without a sign. -/
def integer : Reader Int := do
  let negative ← sign
  let magnitude : Int := digitsValue 10 (← Reader.run1 Char.isDigit)
  return if negative then -magnitude else magnitude

/-- A natural number; a plus sign is allowed. -/
def natural : Reader Nat := do
  let _ ← Reader.optional (Reader.exactly "+")
  return digitsValue 10 (← Reader.run1 Char.isDigit)

/-- A power of ten. -/
def exponent : Reader Int := do
  let _ ← Reader.char fun c => c == 'e' || c == 'E'
  integer

/-- Digits with a point and a power of ten at will. -/
def decimal (negative : Bool) : Reader Binary64 := do
  let whole ← Reader.run Char.isDigit
  let places ← Reader.optional (do Reader.exactly "."; Reader.run Char.isDigit)
  let places := places.getD []
  if whole.isEmpty && places.isEmpty then failure
  let power ← Reader.optional exponent
  return .ofDecimal negative (digitsValue 10 (whole ++ places)) (power.getD 0 - (places.length : Int))

/-- A word in letters of either case. -/
def word (letters : String) : Reader Unit := fun cs =>
  let wanted := letters.toList
  if (cs.take wanted.length).map Char.toLower = wanted then some ((), cs.drop wanted.length) else none

/-- A floating-point number. -/
def float : Reader Binary64 := do
  let negative ← sign
  (do word "infinity"; return .infinite negative) <|>
    (do word "inf"; return .infinite negative) <|>
    (do word "nan"; return .nan) <|>
    decimal negative

end Literal

/-- The double that a text stands for. -/
def Binary64.ofText? (text : String) : Option Binary64 := Literal.float.whole text.toList

end Packager

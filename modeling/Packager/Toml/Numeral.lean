import Packager.Data
import Packager.Toml.Quotation
/-!
# Toml.Numeral — integers and floating-point numbers

Integers are decimal with a sign, or hexadecimal, octal or binary without one, and have 64 bits; a floating-point number
has a fraction or an exponent, or is `inf` or `nan`.  An underscore may stand between two digits.
-/
namespace Packager
namespace Toml

/-- Digits of a class with single underscores between them, which are dropped. -/
def digitRun (isDigit : Char → Bool) : Reader (List Char) := do
  let groups ← Reader.separated (Reader.run1 isDigit) (Reader.exactly "_")
  return groups.flatten

/-- Decimal digits of which the first is not zero, or a single zero. -/
def wholeDigits : Reader (List Char) :=
  (do Reader.exactly "0"; return ['0']) <|> digitRun Char.isDigit

/-- An integer in a base that is told by its first two characters. -/
def basedInteger (opening : String) (base : Nat) (isDigit : Char → Bool) : Reader Int := do
  Reader.exactly opening
  return (Literal.digitsValue base (← digitRun isDigit) : Int)

def decimalInteger : Reader Int := do
  let negative ← Literal.sign
  let magnitude : Int := Literal.digitsValue 10 (← wholeDigits)
  return if negative then -magnitude else magnitude

/-- Whether an integer has 64 bits. -/
def isWord (n : Int) : Bool := Int64.minValue.toInt ≤ n && n ≤ Int64.maxValue.toInt

def integer : Reader Int :=
  Reader.check
    (basedInteger "0x" 16 Literal.isHexDigit <|>
      basedInteger "0o" 8 (fun c => '0' ≤ c && c ≤ '7') <|>
      basedInteger "0b" 2 (fun c => c == '0' || c == '1') <|>
      decimalInteger)
    isWord

/-- The digits after a point. -/
def fraction : Reader (List Char) := do
  Reader.exactly "."
  digitRun Char.isDigit

/-- A power of ten. -/
def exponent : Reader Int := do
  let _ ← Reader.char fun c => c == 'e' || c == 'E'
  let negative ← Literal.sign
  let magnitude : Int := Literal.digitsValue 10 (← digitRun Char.isDigit)
  return if negative then -magnitude else magnitude

/-- A number with a fraction or an exponent.  One too large is refused, unless it is negative. -/
def decimalFloat : Reader Binary64 := do
  let negative ← Literal.sign
  let digits ← wholeDigits
  let places ← Reader.optional fraction
  let power ← if places.isSome then (·.getD 0) <$> Reader.optional exponent else exponent
  let places := places.getD []
  let x := Binary64.ofDecimal negative (Literal.digitsValue 10 (digits ++ places)) (power - (places.length : Int))
  match x with
  | .infinite false => failure
  | _ => return x

def specialFloat : Reader Binary64 := do
  let negative ← Literal.sign
  (do Reader.exactly "inf"; return .infinite negative) <|> (do Reader.exactly "nan"; return .nan)

def float : Reader Binary64 := decimalFloat <|> specialFloat

end Toml
end Packager

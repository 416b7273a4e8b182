/-!
# Number.Binary64 — double-precision numbers as exact values

A finite double is a sign and `mantissa * 2 ^ exponent` with a mantissa of at most 53 bits.  `nearest` rounds a
quotient of natural numbers to a double, halves to the even mantissa, and `ofDecimal` reads a decimal numeral through
it; nothing here depends on the machine's own floating point.
-/
namespace Packager

/-- A double-precision number. -/
inductive Binary64 where
  | finite (negative : Bool) (mantissa : Nat) (exponent : Int)
  | infinite (negative : Bool)
  | nan
  deriving DecidableEq, Repr

namespace Binary64

/-- The exponent of the finest doubles. -/
def finest : Int := -1074

/-- The exponent of the coarsest doubles. -/
def coarsest : Int := 971

/-- `num / den` as a quotient over `2 ^ e`: numerator and denominator. -/
def scaled (num den : Nat) (e : Int) : Nat × Nat :=
  if 0 ≤ e then (num, den <<< e.toNat) else (num <<< (-e).toNat, den)

/-- A quotient rounded to the nearest integer, halves to the even one. -/
def roundHalfEven (num den : Nat) : Nat :=
  let q := num / den
  let r := num % den
  if 2 * r < den then q
  else if den < 2 * r then q + 1
  else if q % 2 = 0 then q else q + 1

/-- The double nearest to `num / den`, which is not negative; `den` is not zero. -/
def nearest (negative : Bool) (num den : Nat) : Binary64 :=
  if num = 0 then finite negative 0 finest
  else
    let guess : Int := (num.log2 : Int) - den.log2 - 52
    let (n, d) := scaled num den guess
    let e := max finest (if n / d < 1 <<< 52 then guess - 1 else guess)
    let (n, d) := scaled num den e
    let m := roundHalfEven n d
    let (m, e) := if m = 1 <<< 53 then (1 <<< 52, e + 1) else (m, e)
    if coarsest < e then infinite negative else finite negative m e

/-- The double nearest to `digits * 10 ^ exponent`.  Exponents far outside the range of doubles are not computed. -/
def ofDecimal (negative : Bool) (digits : Nat) (exponent : Int) : Binary64 :=
  if digits = 0 then finite negative 0 finest
  else
    let magnitude : Int := (Nat.toDigits 10 digits).length + exponent
    if 400 < magnitude then infinite negative
    else if magnitude < -400 then finite negative 0 finest
    else if 0 ≤ exponent then nearest negative (digits * Nat.pow 10 exponent.toNat) 1
    else nearest negative digits (Nat.pow 10 (-exponent).toNat)

/-- Whether the number is greater than zero. -/
def isPositive : Binary64 → Bool
  | finite s m _ => !s && 0 < m
  | infinite s => !s
  | nan => false

/-- A natural number divided by a positive double. -/
def natDiv (n : Nat) : Binary64 → Binary64
  | finite s m e => if 0 ≤ e then nearest s n (m <<< e.toNat) else nearest s (n <<< (-e).toNat) m
  | infinite s => finite s 0 finest
  | nan => nan

end Binary64
end Packager

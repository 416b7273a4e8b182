import Packager.Number.Binary64
/-!
# Number.Shortest — the shortest decimal text of a double

Of all decimal numerals that read back as a given double, `shortest` takes one on the coarsest power-of-ten grid, and of
two on that grid the nearer.  `FloatStyle` says which of two equally near ones is taken and how a numeral is laid out.
-/
namespace Packager

/-- A decimal numeral `digits * 10 ^ exponent`. -/
structure Numeral where
  digits : Nat
  exponent : Int
  deriving DecidableEq, Repr

/-- How a double is written. -/
structure FloatStyle where
  /-- Whether the greater of two numerals equally near is taken; else it is the one with the even last digit. -/
  tiesUp : Bool
  /-- The positions of the decimal point, counted from the first digit, that are written out; at others the number
  has an exponent. -/
  positional : Int → Bool
  /-- Whether a whole number ends in `.0`. -/
  pointZero : Bool

namespace FloatStyle

/-- All digits written out, whole numbers without a point. -/
def plain : FloatStyle := ⟨true, fun _ => true, false⟩

/-- All digits written out, always with a point. -/
def pointed : FloatStyle := ⟨true, fun _ => true, true⟩

/-- Written out from a hundred-thousandth up to sixteen digits before the point, always with a point. -/
def compact : FloatStyle := ⟨false, fun point => -5 < point && point ≤ 16, true⟩

end FloatStyle

namespace Numeral

/-- The text of a numeral that is not zero.  An exponent carries its sign. -/
def render (style : FloatStyle) (n : Numeral) : String :=
  let digits := Nat.toDigits 10 n.digits
  let point : Int := digits.length + n.exponent
  if style.positional point then
    if 0 ≤ n.exponent then
      String.ofList (digits ++ List.replicate n.exponent.toNat '0') ++ (if style.pointZero then ".0" else "")
    else if 0 < point then
      String.ofList (digits.take point.toNat ++ '.' :: digits.drop point.toNat)
    else String.ofList ('0' :: '.' :: (List.replicate (-point).toNat '0' ++ digits))
  else
    let mark := (if 0 < point then "e+" else "e") ++ toString (point - 1)
    match digits with
    | [d] => d.toString ++ mark
    | d :: ds => String.ofList (d :: '.' :: ds) ++ mark
    | [] => mark

end Numeral

namespace Binary64

/-- The numeral of the grid `10 ^ e` that is nearest to `mid / den`, when one lies between `low / den` and `high / den`;
the ends count when `closed`, and `tiesUp` decides between two that are equally near. -/
def onGrid (tiesUp : Bool) (low mid high den : Nat) (closed : Bool) (e : Int) : Option Numeral :=
  let up := if 0 ≤ e then 1 else Nat.pow 10 (-e).toNat
  let unit := if 0 ≤ e then den * Nat.pow 10 e.toNat else den
  let low := low * up
  let mid := mid * up
  let high := high * up
  let k := mid / unit
  let below := if closed then low ≤ k * unit else low < k * unit
  let above := if closed then (k + 1) * unit ≤ high else (k + 1) * unit < high
  if below ∧ above then
    if 2 * mid < (2 * k + 1) * unit then some ⟨k, e⟩
    else if (2 * k + 1) * unit < 2 * mid then some ⟨k + 1, e⟩
    else some ⟨if k % 2 = 0 && !tiesUp then k else k + 1, e⟩
  else if below then some ⟨k, e⟩
  else if above then some ⟨k + 1, e⟩
  else none

/-- The exponents of the grids, coarsest first. -/
def grids : List Int := (List.range 660).map fun (i : Nat) => 310 - (i : Int)

/-- The shortest numeral that reads back as `m * 2 ^ e`, for `m` not zero.  The reals that round to a double reach half
way to its neighbours; below a power of two the neighbour is half as far. -/
def shortest (tiesUp : Bool) (m : Nat) (e : Int) : Numeral :=
  let low := if m = 1 <<< 52 ∧ finest < e then 4 * m - 1 else 4 * m - 2
  let scale := if 2 ≤ e then 1 <<< (e - 2).toNat else 1
  let den := if 2 ≤ e then 1 else 1 <<< (2 - e).toNat
  let hit := grids.findSome? (onGrid tiesUp (low * scale) (4 * m * scale) ((4 * m + 2) * scale) den (m % 2 = 0))
  hit.getD ⟨m, 0⟩

/-- The text of a double. -/
def render (style : FloatStyle) : Binary64 → String
  | nan => "NaN"
  | infinite negative => if negative then "-inf" else "inf"
  | finite negative m e =>
    let sign := if negative then "-" else ""
    if m = 0 then sign ++ (if style.pointZero then "0.0" else "0")
    else sign ++ (shortest style.tiesUp m e).render style

end Binary64
end Packager

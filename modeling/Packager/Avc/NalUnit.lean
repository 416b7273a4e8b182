import Packager.Bytes
/-!
# Avc.NalUnit — the units of an Annex B byte stream

An Annex B stream separates its NAL units by start codes `00 00 01`.  Zero bytes before a start code, and at the end,
belong to no unit, and an empty unit is none.
-/
namespace Packager

/-- The bytes of one NAL unit, without start code. -/
abbrev NalUnit := Bytes

namespace NalUnit

/-- The type in the low five bits of the first byte. -/
def type (nal : NalUnit) : Nat := (nal.headD 0).toNat % 32

def sliceType : Nat := 1
def idrType : Nat := 5
def seiType : Nat := 6
def spsType : Nat := 7
def ppsType : Nat := 8
def delimiterType : Nat := 9

/-- Whether the unit is a coded slice. -/
def isSlice (nal : NalUnit) : Bool := nal.type == sliceType || nal.type == idrType

/-- Whether the unit is a slice that opens a picture: its first macroblock is number zero, coded as a single 1 bit. -/
def opensPicture (nal : NalUnit) : Bool :=
  nal.isSlice && (match nal with
    | _ :: b1 :: _ => 128 ≤ b1.toNat
    | _ => false)

end NalUnit

namespace AnnexB

/-- Drops the zero bytes that lead a list. -/
def dropZeros (bs : Bytes) : Bytes := bs.dropWhile (· == 0)

/-- Closes the unit whose bytes are `reversed`, latest first: trailing zeros are cut, and nothing is left of an empty
unit. -/
def close (reversed : Bytes) (units : List NalUnit) : List NalUnit :=
  match dropZeros reversed with
  | [] => units
  | unit => unit.reverse :: units

/-- Walks a stream inside a unit.  `reversed` holds the bytes of the unit so far and `units` the finished units, both
latest first. -/
def collect (reversed : Bytes) (units : List NalUnit) : Bytes → List NalUnit
  | 0 :: 0 :: 1 :: rest => collect [] (close reversed units) rest
  | b :: rest => collect (b :: reversed) units rest
  | [] => (close reversed units).reverse

/-- What follows the first start code. -/
def afterStartCode? : Bytes → Option Bytes
  | 0 :: 0 :: 1 :: rest => some rest
  | _ :: rest => afterStartCode? rest
  | [] => none

/-- The NAL units of an Annex B stream, in order. -/
def split (data : Bytes) : List NalUnit :=
  match afterStartCode? data with
  | some rest => collect [] [] rest
  | none => []

/-- A NAL unit behind a four-byte start code. -/
def frameUnit (nal : NalUnit) : Bytes := [0, 0, 0, 1] ++ nal

/-- NAL units as an Annex B stream. -/
def join (nals : List NalUnit) : Bytes := nals.flatMap frameUnit

end AnnexB
end Packager

import Packager.Avc.NalUnit
/-!
# Avc.AccessUnit — the NAL units of one picture

An access unit is opened by a delimiter, by a parameter set or message after a slice, or by a slice that opens a
picture after another slice.
-/
namespace Packager
namespace AccessUnit

/-- Whether a NAL unit opens a new access unit, when the current one has a slice already or has none. -/
def opens (hasSlice : Bool) (nal : NalUnit) : Bool :=
  nal.type == NalUnit.delimiterType ||
    hasSlice && (nal.type == NalUnit.spsType || nal.type == NalUnit.ppsType || nal.type == NalUnit.seiType ||
      nal.opensPicture)

/-- Groups NAL units.  `current` holds the units of the open access unit, latest first. -/
def group (current : List NalUnit) (hasSlice : Bool) : List NalUnit → List (List NalUnit)
  | [] => if current.isEmpty then [] else [current.reverse]
  | nal :: nals =>
    if opens hasSlice nal then
      let rest := group [nal] nal.isSlice nals
      if current.isEmpty then rest else current.reverse :: rest
    else group (nal :: current) (hasSlice || nal.isSlice) nals

/-- The access units of an Annex B stream, each written with four-byte start codes. -/
def split (data : Bytes) : List Bytes := (group [] false (AnnexB.split data)).map AnnexB.join

end AccessUnit
end Packager

import Packager.Media
import Packager.Path
/-!
# Naming — what the files of a track are called

A media segment is named after the base name, the representation and its start, an initialization segment after the base
name and the representation.  The templates in the manifest spell the same names with `$RepresentationID$` and `$Time$`
in the places of the numbers.
-/
namespace Packager
namespace Naming

def fileExtension : Kind → String
  | .video => "m4v"
  | .audio => "m4a"

/-- The id of the adaptation set that holds the tracks of a kind. -/
def adaptationSet : Kind → String
  | .video => "0"
  | .audio => "1"

/-- The codec string announced before the stream itself tells otherwise. -/
def defaultCodec : Kind → String
  | .video => "avc1.42c01e"
  | .audio => "mp4a.40.2"

def segmentName (baseName representation time extension : String) : String :=
  baseName ++ "_" ++ representation ++ "_" ++ time ++ "." ++ extension

def headerName (baseName representation extension : String) : String :=
  baseName ++ "_" ++ representation ++ "_init." ++ extension

/-- The file of a media segment that starts at a tick. -/
def segmentPath (folder : Path) (baseName : String) (track : TrackId) (timestamp : Nat) (extension : String) : Path :=
  folder.join (segmentName baseName (toString track) (toString timestamp) extension)

/-- The file of an initialization segment. -/
def headerPath (folder : Path) (baseName : String) (track : TrackId) (extension : String) : Path :=
  folder.join (headerName baseName (toString track) extension)

def segmentTemplate (baseName extension : String) : String :=
  segmentName baseName "$RepresentationID$" "$Time$" extension

def headerTemplate (baseName extension : String) : String := headerName baseName "$RepresentationID$" extension

end Naming
end Packager

import Packager.CommandLine.Run
import Std.Time.DateTime.Timestamp
/-!
# Main — the program on the real disk

The outermost layer: file operations and the clock of the system, the arguments in, the messages and the exit code out.
-/
namespace Packager

/-- The wordings of common system errors by number. -/
def IoError.wordings : List (Nat × String) :=
  [(1, "Operation not permitted"), (2, "No such file or directory"), (13, "Permission denied"),
    (16, "Device or resource busy"), (17, "File exists"), (20, "Not a directory"), (21, "Is a directory"),
    (28, "No space left on device"), (30, "Read-only file system"), (36, "File name too long"),
    (39, "Directory not empty"), (40, "Too many levels of symbolic links")]

/-- A system error by its number, which some operations give with its sign turned. -/
def IoError.ofCode (code : UInt32) (details : String) : IoError :=
  let number := min code.toNat (-code).toNat
  .system number ((wordings.lookup number).getD details)

/-- A failed operation of the system as a file error. -/
def IoError.ofSystem : IO.Error → IoError
  | .alreadyExists _ code details => ofCode code details
  | .otherError code details => ofCode code details
  | .resourceBusy code details => ofCode code details
  | .resourceVanished code details => ofCode code details
  | .unsupportedOperation code details => ofCode code details
  | .hardwareFault code details => ofCode code details
  | .unsatisfiedConstraints code details => ofCode code details
  | .illegalOperation code details => ofCode code details
  | .protocolError code details => ofCode code details
  | .timeExpired code details => ofCode code details
  | .interrupted _ code details => ofCode code details
  | .noFileOrDirectory _ code details => ofCode code details
  | .invalidArgument _ code details => ofCode code details
  | .permissionDenied _ code details => ofCode code details
  | .resourceExhausted _ code details => ofCode code details
  | .inappropriateType _ code details => ofCode code details
  | .noSuchThing _ code details => ofCode code details
  | .unexpectedEof => .system 0 "unexpected end of file"
  | .userError text => .system 0 text

/-- Runs a file operation and reports how it failed. -/
def attemptFile {α : Type} (operation : IO α) : IO (Except IoError α) := do
  match ← operation.toBaseIO with
  | .ok a => return .ok a
  | .error e => return .error (.ofSystem e)

/-- The file system of the machine. -/
def Disk.system : Disk IO where
  createFolders path :=
    Disk.createMissing (fun path => attemptFile (IO.FS.createDir path.text))
      (fun path => (IO.FS.DirEntry.mk path.text ".").path.isDir) path.ancestors
  writeFile path content := attemptFile (IO.FS.writeBinFile path.text (ByteArray.mk content.toArray))
  rename source target := attemptFile (IO.FS.rename source.text target.text)
  readFile path := attemptFile do return (← IO.FS.readBinFile path.text).data.toList

/-- The time of day. -/
def systemClock : IO Instant := do
  let now ← Std.Time.Timestamp.now
  let nanos := now.toNanosecondsSinceUnixEpoch.val
  return ⟨nanos / nanosPerSecond, (nanos % nanosPerSecond).toNat⟩

end Packager

/-- The program. -/
def main (arguments : List String) : IO UInt32 := do
  match Packager.CommandLine.Arguments.read arguments with
  | .error .misuse =>
    IO.eprintln "error: invalid arguments"
    return 2
  | .error .answered => return 0
  | .ok arguments =>
    let ending ← Packager.CommandLine.run Packager.Disk.system Packager.systemClock arguments
    for line in ending.complaints do IO.eprintln line
    match ending.finish with
    | .done (some note) => IO.println note
    | _ => pure ()
    return ending.finish.exitCode

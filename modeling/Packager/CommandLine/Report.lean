import Packager.Failure
import Packager.Settings.Storage
/-!
# CommandLine.Report — how a run ends

A run ends with success or with a failure, which is shown by its name and its details, and the exit code tells which.
-/
namespace Packager

/-- The names of the system's errors by number. -/
def IoError.names : List (Nat × String) :=
  [(1, "PermissionDenied"), (2, "NotFound"), (4, "Interrupted"), (11, "WouldBlock"), (12, "OutOfMemory"),
    (13, "PermissionDenied"), (16, "ResourceBusy"), (17, "AlreadyExists"), (18, "CrossesDevices"),
    (20, "NotADirectory"), (21, "IsADirectory"), (22, "InvalidInput"), (26, "ExecutableFileBusy"),
    (27, "FileTooLarge"), (28, "StorageFull"), (29, "NotSeekable"), (30, "ReadOnlyFilesystem"), (31, "TooManyLinks"),
    (32, "BrokenPipe"), (36, "InvalidFilename"), (38, "Unsupported"), (39, "DirectoryNotEmpty"),
    (40, "FilesystemLoop"), (122, "QuotaExceeded")]

/-- A file error with all its parts. -/
def IoError.inspect : IoError → String
  | .system code wording =>
    let name := (names.lookup code).getD "Uncategorized"
    "Os \x7b code: " ++ toString code ++ ", kind: " ++ name ++ ", message: " ++ Quoted.quote wording ++ " \x7d"
  | .notUtf8 => "Error \x7b kind: InvalidData, message: " ++ Quoted.quote notUtf8.message ++ " \x7d"
  | .zeroInName => "Error \x7b kind: InvalidInput, message: " ++ Quoted.quote zeroInName.message ++ " \x7d"

/-- A failure with its parts, as far as a run can end with it. -/
def Failure.inspect (f : Failure) : String :=
  match f with
  | .io error => "Io(" ++ error.inspect ++ ")"
  | .bitstream _ => "InvalidBitstream(" ++ Quoted.quote f.detail ++ ")"
  | .manifest _ => "Manifest(" ++ Quoted.quote f.detail ++ ")"
  | .settings _ => "Config(" ++ Quoted.quote f.detail ++ ")"
  | _ => Quoted.quote f.message

namespace CommandLine

/-- Why a run did not succeed. -/
inductive Trouble where
  /-- A file of the command line cannot be read or written. -/
  | file (error : IoError)
  /-- The settings file is not one. -/
  | settingsFile (text : String)
  | publisher (failure : Failure)
  | frameRate (rate : Binary64)
  | nothingToDo

/-- What a failed run shows. -/
def Trouble.message (t : Trouble) : String :=
  "Error: " ++ match t with
    | file error => error.inspect
    | settingsFile text => text
    | publisher failure => failure.inspect
    | frameRate rate => Quoted.quote ("invalid frame rate " ++ rate.render .plain)
    | nothingToDo => Quoted.quote "nothing to segment: pass --audio and/or --video"

def Trouble.ofLoad : LoadFailure → Trouble
  | .io error => file error
  | .malformed => settingsFile "malformed settings file"
  | .mismatch reason => settingsFile (reason.message .pointed)

def Trouble.ofSave : SaveFailure → Trouble
  | .io error => file error
  | .numberTooLarge => settingsFile "number too large for a settings file"

/-- How a run ends. -/
inductive Finish where
  /-- All was done; there may be something to tell. -/
  | done (note : Option String)
  | failed (trouble : Trouble)
  /-- A time stamp of the video does not fit. -/
  | outOfTime
  /-- A part of the log level starts or ends within a character. -/
  | cutLevel

def Finish.exitCode : Finish → UInt32
  | done _ => 0
  | failed _ => 1
  | outOfTime | cutLevel => 101

/-- The end of a run and the warnings that went before it. -/
structure Ending where
  warnings : List String
  finish : Finish

/-- The lines that an ending shows as trouble. -/
def Ending.complaints (e : Ending) : List String :=
  e.warnings ++ match e.finish with
    | .done _ => []
    | .failed trouble => [trouble.message]
    | .outOfTime => ["error: a time stamp does not fit"]
    | .cutLevel => ["error: a part of the log level starts or ends within a character"]

end CommandLine
end Packager
